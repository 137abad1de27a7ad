import Granularity.Proofs.Discovery
import Granularity.Proofs.Isolation
import Mathlib.Data.List.Induction

namespace Granularity

namespace FileTree

variable {t : FileTree}

/-- Every entry lies in a directory. -/
def Rooted (t : FileTree) : Prop := ∀ e ∈ t.entries, t.entryAt? e.1.dropLast = some .directory

instance (t : FileTree) : Decidable t.Rooted :=
  inferInstanceAs (Decidable (∀ e ∈ t.entries, t.entryAt? e.1.dropLast = some .directory))

theorem Rooted.directory_of_append (hr : t.Rooted) {dir names : Place} {e : Entry} (hn : names ≠ [])
    (h : t.entryAt? (dir ++ names) = some e) : t.entryAt? dir = some .directory := by
  induction names using List.reverseRecOn generalizing e with
  | nil => exact absurd rfl hn
  | append_singleton names name ih =>
    have hmem := mem_entries_of_some (by simp) h
    have hparent := hr _ hmem
    rw [← List.append_assoc, List.dropLast_concat] at hparent
    by_cases hnil : names = []
    · simpa [hnil] using hparent
    · exact ih hnil hparent

theorem mem_children_of_entry {dir : Place} {name : String} {e : Entry} (h : t.entryAt? (dir ++ [name]) = some e) :
    name ∈ t.children dir := by
  have hmem := mem_entries_of_some (by simp) h
  exact List.mem_mergeSort.2 (List.mem_filterMap.2 ⟨_, hmem, by simp⟩)

theorem LinkFree.exists_visit (hl : t.LinkFree) (hw : t.WellFormed) (hr : t.Rooted) {names : Place} {bytes : ByteArray}
    (hne : names ≠ []) (opened : List OpenDirectory) (path : Path) (dir : Place) (hp : path.text ≠ "")
    (h : t.entryAt? (dir ++ names) = some (.file bytes)) :
    ∃ p, .file p ∈ t.visits opened path dir ∧ p.components = path.components ++ names.map .name := by
  induction names generalizing opened path dir with
  | nil => exact absurd rfl hne
  | cons name names ih =>
    rw [hl.visits_eq]
    have hentry : ∃ e, t.entryAt? (dir ++ [name]) = some e := by
      by_cases hnil : names = []
      · exact ⟨.file bytes, by simpa [hnil] using h⟩
      · exact ⟨.directory, hr.directory_of_append hnil (by simpa using h)⟩
    obtain ⟨e, he⟩ := hentry
    have hname := mem_children_of_entry he
    obtain ⟨hn, -⟩ := hw.child hname
    have hjoin := hn.components_join hp
    by_cases hnil : names = []
    · subst hnil
      refine ⟨path.join ⟨name⟩, List.mem_flatMap.2 ⟨name, hname, ?_⟩, hjoin⟩
      simp [childVisits, h]
    · have hdir := hr.directory_of_append hnil (by simpa using h : t.entryAt? (dir ++ [name] ++ names) = _)
      obtain ⟨p, hv, hcomponents⟩ := ih hnil (⟨dir ++ [name], path.join ⟨name⟩⟩ :: opened) (path.join ⟨name⟩)
        (dir ++ [name]) (hn.join_ne_empty hp) (by simpa using h)
      refine ⟨p, List.mem_flatMap.2 ⟨name, hname, ?_⟩, ?_⟩
      · simpa [childVisits, hdir] using hv
      · rw [hcomponents, hjoin]
        simp

/-- The places below some of the directories of files that have one of the extensions and are no text. -/
def damaged (t : FileTree) (extensions : List String) (dirs : List Place) : List Place :=
  (t.entries.filter fun e => !e.2.isText && dirs.any (·.isPrefixOf e.1) &&
    e.1.getLast?.any fun name => hasExtension extensions ⟨name⟩).map Prod.fst

theorem WellFormed.nodup_damaged (hw : t.WellFormed) (extensions : List String) (dirs : List Place) :
    (t.damaged extensions dirs).Nodup :=
  hw.distinct.sublist (List.filter_sublist.map _)

theorem WellFormed.mem_damaged (hw : t.WellFormed) {extensions : List String} {dirs : List Place} {place : Place} :
    place ∈ t.damaged extensions dirs ↔ ∃ bytes name, t.entryAt? place = some (.file bytes) ∧
      String.fromUTF8? bytes = none ∧ (∃ dir ∈ dirs, dir <+: place) ∧ place.getLast? = some name ∧
      hasExtension extensions ⟨name⟩ = true := by
  constructor
  · intro h
    obtain ⟨⟨place, e⟩, he, rfl⟩ := List.mem_map.1 h
    obtain ⟨he, hbad⟩ := List.mem_filter.1 he
    simp only [Bool.and_eq_true, Bool.not_eq_true', List.any_eq_true, List.isPrefixOf_iff_prefix,
      Option.any_eq_true] at hbad
    obtain ⟨⟨htext, hbelow⟩, name, hlast, hext⟩ := hbad
    have hentry : t.entryAt? place = some e := by
      apply hw.entryAt?_of_mem _ he
      rintro rfl
      cases hlast
    cases e with
    | directory => cases htext
    | link target => cases htext
    | file bytes => exact ⟨bytes, name, hentry, by simpa [Entry.isText] using htext, hbelow, hlast, hext⟩
  · rintro ⟨bytes, name, hentry, hbytes, hbelow, hlast, hext⟩
    have hne : place ≠ [] := by
      rintro rfl
      cases hlast
    refine List.mem_map.2 ⟨(place, .file bytes), List.mem_filter.2 ⟨mem_entries_of_some hne hentry, ?_⟩, rfl⟩
    simpa [Entry.isText, hbytes, hlast, hext] using hbelow

theorem locate?_of_finds {path : Path} {place : Place} {bytes : ByteArray} (h : t.Finds path place bytes) :
    t.locate? path = some place := by
  rw [locate?, h.1]
  rfl

theorem IsName.hasExtension_names {path p : Path} {names : Place} {name : String} (hn : IsName name)
    (hp : p.components = path.components ++ names.map .name) (hlast : names.getLast? = some name)
    (extensions : List String) : hasExtension extensions p = hasExtension extensions ⟨name⟩ := by
  apply hn.hasExtension_eq
  simp [hp, List.getLast?_append, hlast]

theorem LinkFree.mem_damaged_of_walk (hl : t.LinkFree) (hw : t.WellFormed) {path p : Path} {dir : Place}
    (hp : t.LeadsTo path dir) (hd : t.entryAt? dir = some .directory) {extensions : List String}
    (h : p ∈ (t.walk path extensions).files) (htext : t.isTextPath p = false) :
    ∃ place ∈ t.damaged extensions [dir], t.locate? p = some place := by
  obtain ⟨names, bytes, hne, hcomponents, hfinds⟩ := hl.walk_names hw hp hd h
  refine ⟨dir ++ names, hw.mem_damaged.2 ?_, locate?_of_finds hfinds⟩
  rw [isTextPath_of_finds hfinds] at htext
  have hlast := List.getLast?_eq_some_getLast hne
  have hname : IsName (names.getLast hne) :=
    hw.named _ hfinds.mem_entries _ (List.mem_append_right _ (List.getLast_mem hne))
  refine ⟨bytes, names.getLast hne, hfinds.2, by simpa using htext, ?_, ?_, ?_⟩
  · exact ⟨dir, by simp, List.prefix_append _ _⟩
  · simp [List.getLast?_append, hlast]
  · rw [← hname.hasExtension_names hcomponents hlast]
    exact (List.mem_filter.1 h).2

theorem LinkFree.exists_walk_of_damaged (hl : t.LinkFree) (hw : t.WellFormed) (hr : t.Rooted) {path : Path}
    {dir place : Place} (hp : t.LeadsTo path dir) (hd : t.entryAt? dir = some .directory) {extensions : List String}
    (h : place ∈ t.damaged extensions [dir]) :
    ∃ p ∈ (t.walk path extensions).files, t.isTextPath p = false ∧ t.locate? p = some place := by
  obtain ⟨bytes, name, hentry, hbytes, ⟨dir', hdir', hbelow⟩, hlast, hext⟩ := hw.mem_damaged.1 h
  obtain rfl := List.mem_singleton.1 hdir'
  obtain ⟨names, rfl⟩ := hbelow
  have hne : names ≠ [] := by
    rintro rfl
    rw [List.append_nil, hd] at hentry
    cases hentry
  have hlast : names.getLast? = some name := by
    simpa [List.getLast?_append, List.getLast?_eq_some_getLast hne] using hlast
  obtain ⟨p, hvisit, hcomponents⟩ := hl.exists_visit hw hr hne [⟨dir', path⟩] path dir'
    (pathFault?_eq_none.1 hp.sound).1 hentry
  have hname : IsName name :=
    hw.named _ (mem_entries_of_some (by simp [hne]) hentry) _ (List.mem_append_right _ (List.mem_of_getLast? hlast))
  have hfile : p ∈ (t.walk path extensions).files := by
    simp only [walk, hp.walkFrom_eq hd]
    refine List.mem_filter.2 ⟨List.mem_filterMap.2 ⟨_, hvisit, rfl⟩, ?_⟩
    rw [hname.hasExtension_names hcomponents hlast, hext]
  obtain ⟨names', bytes', -, hcomponents', hfinds⟩ := hl.walk_names hw hp hd hfile
  -- the components of the path tell its place
  obtain rfl : names = names' := by
    rw [hcomponents] at hcomponents'
    exact List.map_injective_iff.2 (fun _ _ => Component.name.inj) (List.append_cancel_left hcomponents')
  obtain rfl : bytes = bytes' := by
    rw [hfinds.2] at hentry
    cases hentry
    rfl
  exact ⟨p, hfile, by simp [isTextPath_of_finds hfinds, hbytes], locate?_of_finds hfinds⟩

theorem LinkFree.perm_damaged (hl : t.LinkFree) (hw : t.WellFormed) (hr : t.Rooted) {path : Path} {dir : Place}
    (hp : t.LeadsTo path dir) (hd : t.entryAt? dir = some .directory) (extensions : List String) :
    (((t.walk path extensions).files.filter (!t.isTextPath ·)).map t.locate?).Perm
      ((t.damaged extensions [dir]).map some) := by
  have hnodup : (((t.walk path extensions).files.filter (!t.isTextPath ·)).map t.locate?).Nodup := by
    refine List.pairwise_map.2 (((hw.spread_walk path extensions).distinct.filter _).imp_of_mem ?_)
    intro p q hfile hfile' hne heq
    obtain ⟨names, bytes, -, hcomponents, hfinds⟩ := hl.walk_names hw hp hd (List.mem_filter.1 hfile).1
    obtain ⟨names', bytes', -, hcomponents', hfinds'⟩ := hl.walk_names hw hp hd (List.mem_filter.1 hfile').1
    rw [locate?_of_finds hfinds, locate?_of_finds hfinds'] at heq
    apply hne
    rw [hcomponents, hcomponents', List.append_cancel_left (Option.some.inj heq)]
  rw [List.perm_ext_iff_of_nodup hnodup ((hw.nodup_damaged extensions [dir]).map (Option.some_injective _))]
  intro place?
  constructor
  · intro h
    obtain ⟨p, hfile, rfl⟩ := List.mem_map.1 h
    obtain ⟨hfile, htext⟩ := List.mem_filter.1 hfile
    obtain ⟨place, hplace, hlocate⟩ := hl.mem_damaged_of_walk hw hp hd hfile (by simpa using htext)
    exact List.mem_map.2 ⟨place, hplace, hlocate.symm⟩
  · intro h
    obtain ⟨place, hplace, rfl⟩ := List.mem_map.1 h
    obtain ⟨p, hfile, htext, hlocate⟩ := hl.exists_walk_of_damaged hw hr hp hd hplace
    exact List.mem_map.2 ⟨p, List.mem_filter.2 ⟨hfile, by simp [htext]⟩, hlocate⟩

end FileTree

end Granularity
