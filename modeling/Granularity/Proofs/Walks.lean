import Granularity.Proofs.Location

namespace Granularity

namespace FileTree

variable {t : FileTree}

theorem WellFormed.entryAt?_of_mem (hw : t.WellFormed) {place : Place} {e : Entry} (hne : place ≠ [])
    (h : (place, e) ∈ t.entries) : t.entryAt? place = some e := by
  rw [entryAt?, if_neg (by simpa using hne)]
  have hnodup := hw.distinct
  generalize t.entries = l at h hnodup
  induction l with
  | nil => simp at h
  | cons x l ih =>
    obtain ⟨k, v⟩ := x
    obtain ⟨hk, hl⟩ := List.nodup_cons.1 hnodup
    rw [List.lookup_cons]
    rcases List.mem_cons.1 h with h | h
    · obtain ⟨rfl, rfl⟩ := Prod.mk.inj h
      simp
    · have hkp : place ≠ k := fun he => hk (List.mem_map.2 ⟨_, h, he⟩)
      rw [beq_eq_false_iff_ne.2 hkp]
      exact ih h hl

theorem sorted_mergeSort (l : List String) : l.mergeSort.Pairwise (· ≤ ·) := by
  have htrans (a b c : String) : decide (a ≤ b) = true → decide (b ≤ c) = true → decide (a ≤ c) = true := by
    simpa using String.le_trans
  have htotal (a b : String) : (decide (a ≤ b) || decide (b ≤ a)) = true := by
    simpa using String.le_total a b
  simpa using List.pairwise_mergeSort htrans htotal l

theorem mem_children {dir : Place} {name : String} (h : name ∈ t.children dir) :
    ∃ e, (dir ++ [name], e) ∈ t.entries := by
  obtain ⟨⟨place, e⟩, hm, h⟩ := List.mem_filterMap.1 (List.mem_mergeSort.1 h)
  split at h
  · next hd =>
    obtain ⟨a, rfl⟩ := List.getLast?_eq_some_iff.1 h
    rw [List.dropLast_concat] at hd
    subst hd
    exact ⟨e, hm⟩
  · cases h

theorem WellFormed.child (hw : t.WellFormed) {dir : Place} {name : String} (h : name ∈ t.children dir) :
    IsName name ∧ ∃ e, t.entryAt? (dir ++ [name]) = some e := by
  obtain ⟨e, he⟩ := mem_children h
  exact ⟨hw.named _ he name (by simp), e, hw.entryAt?_of_mem (by simp) he⟩

def childVisits (t : FileTree) (opened : List OpenDirectory) (path : Path) (dir : Place) (name : String) :
    List Visit :=
  match t.entryAt? (dir ++ [name]) with
  | some (.file _) => [.file (path.join ⟨name⟩)]
  | some .directory => t.visits (⟨dir ++ [name], path.join ⟨name⟩⟩ :: opened) (path.join ⟨name⟩) (dir ++ [name])
  | _ => []

theorem visits_of_no_link {dir : Place} (hl : ∀ name target, t.entryAt? (dir ++ [name]) ≠ some (.link target))
    (opened : List OpenDirectory) (path : Path) :
    t.visits opened path dir = (t.children dir).flatMap (t.childVisits opened path dir) := by
  rw [visits]
  congr 1
  funext name
  simp only [childVisits]
  split
  · next h => rw [h]
  · next h => rw [h]
  · next h => rw [h]
  · next target h => exact absurd h (hl name target)

theorem LinkFree.visits_eq (hl : t.LinkFree) (opened : List OpenDirectory) (path : Path) (dir : Place) :
    t.visits opened path dir = (t.children dir).flatMap (t.childVisits opened path dir) :=
  visits_of_no_link (fun _ => hl.entryAt?_ne_link _) opened path

/-- The path leads to a file with these bytes. -/
def Finds (t : FileTree) (path : Path) (place : Place) (bytes : ByteArray) : Prop :=
  t.locate true path = .ok place ∧ t.entryAt? place = some (.file bytes)

theorem readText_of_finds {path : Path} {place : Place} {bytes : ByteArray} (h : t.Finds path place bytes) :
    t.readText path = (String.fromUTF8? bytes).elim (.error .notText) .ok := by
  simp only [readText, h.1, h.2]
  cases String.fromUTF8? bytes <;> rfl

theorem LinkFree.finds_congr (hl : t.LinkFree) {p q : Path} {place : Place} {bytes : ByteArray}
    (h : p.components = q.components) (hq : q.EndsNamed) (hf : t.Finds p place bytes) : t.Finds q place bytes := by
  obtain ⟨hlocate, hentry⟩ := hf
  refine ⟨?_, hentry⟩
  have hinner : Path.inner p.segments = Path.inner q.segments := by
    rw [Path.inner_segments, Path.inner_segments, h]
  have hstart : start q t.workingDirectory = start p t.workingDirectory := by
    rw [start, start, Path.isAbsolute_eq_contains, Path.isAbsolute_eq_contains, h]
  simp only [locate] at hlocate ⊢
  split at hlocate
  · cases hlocate
  · next hp =>
    rw [(pathFault?_congr h).1 hp, hstart]
    rcases hl.locateFrom_ok hlocate with hleads | ⟨a, s, mid, -, hseg, hs, hup, ha, rfl, -⟩
    · exact (hleads.congr hinner).locateFrom_eq true maxLinks
    · obtain ⟨b, s', hseg', hs'⟩ := hq
      obtain ⟨c, hc⟩ := Option.isSome_iff_exists.1 hs'
      have hname := Component.ofSegment?_eq_name.2 ⟨hs, hup, rfl⟩
      have hlast : Path.inner a ++ [.name (String.ofList s)] = Path.inner b ++ [c] := by
        simpa [hseg, hseg', Path.inner, hname, hc] using hinner
      obtain ⟨hab, hsame⟩ := List.append_inj' hlast rfl
      obtain rfl : Component.name (String.ofList s) = c := by simpa using hsame
      obtain ⟨hs, hup, heq⟩ := Component.ofSegment?_eq_name.1 hc
      rw [hseg', ← heq]
      exact (ha.congr hab).locateFrom_file hs hup (by rwa [heq]) true maxLinks

theorem LinkFree.finds_relative (hl : t.LinkFree) {p root : Path} {dir place : Place} {bytes : ByteArray}
    (hroot : t.LeadsTo root dir) (hdir : t.entryAt? dir = some .directory)
    (h : p.isAbsolute = true ∨ root.components <+: p.components) (hf : t.Finds p place bytes) :
    t.Finds (root.join (p.relativeTo root)) place bytes := by
  rcases Path.join_relativeTo (pathFault?_eq_none.1 hroot.sound).1 h with heq | ⟨hcomponents, hends⟩
  · rwa [heq]
  · refine hl.finds_congr hcomponents.symm (hends fun heq => ?_) hf
    -- the root leads to a directory, so the path of a file differs from it
    have hlocate := (hroot.congr heq).locate_eq true
    rw [hf.1] at hlocate
    cases hlocate
    rw [hf.2] at hdir
    cases hdir

theorem LinkFree.mem_visits (hl : t.LinkFree) (hw : t.WellFormed) (opened : List OpenDirectory) (path : Path)
    (dir : Place) (hp : t.LeadsTo path dir) :
    ∀ v ∈ t.visits opened path dir, ∃ p names bytes, v = .file p ∧ names ≠ [] ∧
      p.components = path.components ++ names.map .name ∧ t.Finds p (dir ++ names) bytes := by
  induction opened, path, dir using visits.induct t with
  | case1 opened path dir ih _ =>
    intro v hv
    rw [hl.visits_eq] at hv
    obtain ⟨name, hname, hv⟩ := List.mem_flatMap.1 hv
    obtain ⟨hn, e, he⟩ := hw.child hname
    have hjoin := hn.components_join (pathFault?_eq_none.1 hp.sound).1
    simp only [childVisits, he] at hv
    cases e with
    | file bytes =>
      exact ⟨_, [name], bytes, List.mem_singleton.1 hv, by simp, hjoin, hp.locate_join_file hn he true, he⟩
    | directory =>
      obtain ⟨p, names, bytes, hv, -, hcomponents, hfinds⟩ := ih name he (hp.join_directory hn he) v hv
      refine ⟨p, name :: names, bytes, hv, by simp, ?_, by simpa using hfinds⟩
      rw [hcomponents, hjoin]
      simp
    | link target => simp at hv

theorem isDirectory_iff {path : Path} :
    t.isDirectory path = true ↔ ∃ dir, t.locate true path = .ok dir ∧ t.entryAt? dir = some .directory := by
  simp only [isDirectory, locate?]
  cases h : t.locate true path with
  | error fault => simp [Except.toOption]
  | ok place => simp [Except.toOption, isDirectoryAt]

theorem LinkFree.isDirectory_iff (hl : t.LinkFree) {path : Path} :
    t.isDirectory path = true ↔ ∃ dir, t.LeadsTo path dir ∧ t.entryAt? dir = some .directory := by
  rw [FileTree.isDirectory_iff]
  constructor
  · rintro ⟨dir, h, hd⟩
    exact ⟨dir, hl.leadsTo_of_locate h hd, hd⟩
  · rintro ⟨dir, h, hd⟩
    exact ⟨dir, h.locate_eq true, hd⟩

theorem LeadsTo.walkFrom_eq {path : Path} {dir : Place} (h : t.LeadsTo path dir)
    (hd : t.entryAt? dir = some .directory) : t.walkFrom path = t.visits [⟨dir, path⟩] path dir := by
  simp [walkFrom, h.locate_eq, isDirectoryAt, hd]

theorem LinkFree.walk_failures (hl : t.LinkFree) (hw : t.WellFormed) {path : Path} (hd : t.isDirectory path = true)
    (extensions : List String) : (t.walk path extensions).failures = [] := by
  obtain ⟨dir, hp, hdir⟩ := hl.isDirectory_iff.1 hd
  simp only [walk, hp.walkFrom_eq hdir, List.filterMap_eq_nil_iff]
  intro v hv
  obtain ⟨p, names, bytes, rfl, -⟩ := hl.mem_visits hw _ _ _ hp v hv
  rfl

theorem LinkFree.walk_names (hl : t.LinkFree) (hw : t.WellFormed) {path : Path} {dir : Place}
    (hp : t.LeadsTo path dir) (hd : t.entryAt? dir = some .directory) {extensions : List String} {p : Path}
    (h : p ∈ (t.walk path extensions).files) : ∃ names bytes, names ≠ [] ∧
      p.components = path.components ++ names.map .name ∧ t.Finds p (dir ++ names) bytes := by
  simp only [walk, hp.walkFrom_eq hd] at h
  obtain ⟨v, hv, hvp⟩ := List.mem_filterMap.1 (List.mem_filter.1 h).1
  obtain ⟨q, names, bytes, rfl, hfound⟩ := hl.mem_visits hw _ _ _ hp v hv
  cases hvp
  exact ⟨names, bytes, hfound⟩

theorem LinkFree.walk_finds (hl : t.LinkFree) (hw : t.WellFormed) {path : Path} (hd : t.isDirectory path = true)
    {extensions : List String} {p : Path} (h : p ∈ (t.walk path extensions).files) :
    path.components <+: p.components ∧ ∃ place bytes, t.Finds p place bytes := by
  obtain ⟨dir, hp, hdir⟩ := hl.isDirectory_iff.1 hd
  obtain ⟨names, bytes, -, hcomponents, hfinds⟩ := hl.walk_names hw hp hdir h
  exact ⟨⟨_, hcomponents.symm⟩, dir ++ names, bytes, hfinds⟩

end FileTree

end Granularity
