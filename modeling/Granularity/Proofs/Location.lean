import Granularity.FileTree.Walk
import Granularity.Proofs.Paths

namespace Granularity

namespace FileTree

open Text

/-- A name that an entry of a directory can have. -/
structure IsName (name : String) : Prop where
  ne_empty : name.toList ≠ []
  ne_here : name.toList ≠ ['.']
  ne_up : name.toList ≠ ['.', '.']
  no_slash : '/' ∉ name.toList
  no_nul : '\x00' ∉ name.toList

instance (name : String) : Decidable (IsName name) :=
  decidable_of_iff (name.toList ≠ [] ∧ name.toList ≠ ['.'] ∧ name.toList ≠ ['.', '.'] ∧ '/' ∉ name.toList ∧
    '\x00' ∉ name.toList) ⟨fun ⟨h₁, h₂, h₃, h₄, h₅⟩ => ⟨h₁, h₂, h₃, h₄, h₅⟩,
    fun h => ⟨h.ne_empty, h.ne_here, h.ne_up, h.no_slash, h.no_nul⟩⟩

/-- Every place holds one entry, and places are made of names. -/
structure WellFormed (t : FileTree) : Prop where
  distinct : (t.entries.map Prod.fst).Nodup
  named : ∀ e ∈ t.entries, ∀ name ∈ e.1, IsName name

instance (t : FileTree) : Decidable t.WellFormed :=
  decidable_of_iff ((t.entries.map Prod.fst).Nodup ∧ ∀ e ∈ t.entries, ∀ name ∈ e.1, IsName name)
    ⟨fun ⟨h₁, h₂⟩ => ⟨h₁, h₂⟩, fun h => ⟨h.distinct, h.named⟩⟩

def LinkFree (t : FileTree) : Prop := ∀ e ∈ t.entries, ∀ target, e.2 ≠ .link target

theorem mem_entries_of_some {t : FileTree} {place : Place} {e : Entry} (hne : place ≠ [])
    (h : t.entryAt? place = some e) : (place, e) ∈ t.entries := by
  rw [entryAt?, if_neg (by simpa using hne)] at h
  obtain ⟨l₁, l₂, h, -⟩ := List.lookup_eq_some_iff.1 h
  rw [h]
  simp

theorem LinkFree.entryAt?_ne_link {t : FileTree} (hl : t.LinkFree) (place : Place) (target : Path) :
    t.entryAt? place ≠ some (.link target) := by
  intro h
  by_cases hne : place = []
  · simp [hne, entryAt?] at h
  · exact hl _ (mem_entries_of_some hne h) target rfl

/-- The segments lead from one directory to another through directories only. -/
inductive Leads (t : FileTree) : Place → List (List Char) → Place → Prop where
  | done (dir : Place) : Leads t dir [] dir
  | stay {dir last : Place} {s : List Char} {rest : List (List Char)} (hs : s = [] ∨ s = ['.']) :
      Leads t dir rest last → Leads t dir (s :: rest) last
  | up {dir last : Place} {rest : List (List Char)} :
      Leads t dir.dropLast rest last → Leads t dir (['.', '.'] :: rest) last
  | down {dir last : Place} {s : List Char} {rest : List (List Char)} (hs : ¬ (s = [] ∨ s = ['.']))
      (hup : s ≠ ['.', '.']) (hd : t.entryAt? (dir ++ [String.ofList s]) = some .directory) :
      Leads t (dir ++ [String.ofList s]) rest last → Leads t dir (s :: rest) last

theorem Leads.append {t : FileTree} {dir mid last : Place} {a b : List (List Char)} (h : t.Leads dir a mid)
    (hb : t.Leads mid b last) : t.Leads dir (a ++ b) last := by
  induction h with
  | done => exact hb
  | stay hs _ ih => exact .stay hs (ih hb)
  | up _ ih => exact .up (ih hb)
  | down hs hup hd _ ih => exact .down hs hup hd (ih hb)

theorem Leads.locateFrom_append {t : FileTree} {dir mid : Place} {a : List (List Char)} (h : t.Leads dir a mid)
    (followLast : Bool) (links : Nat) (b : List (List Char)) :
    t.locateFrom followLast links dir (a ++ b) = t.locateFrom followLast links mid b := by
  induction h with
  | done => rfl
  | stay hs _ ih =>
    rw [List.cons_append, locateFrom, if_pos hs]
    exact ih
  | up _ ih =>
    rw [List.cons_append, locateFrom, if_neg (by simp), if_pos rfl]
    exact ih
  | down hs hup hd _ ih =>
    rw [List.cons_append, locateFrom, if_neg hs, if_neg hup]
    simp only [hd]
    exact ih

theorem Leads.locateFrom_eq {t : FileTree} {dir last : Place} {a : List (List Char)} (h : t.Leads dir a last)
    (followLast : Bool) (links : Nat) : t.locateFrom followLast links dir a = .ok last := by
  have := h.locateFrom_append followLast links []
  rwa [List.append_nil, locateFrom] at this

theorem Leads.locateFrom_file {t : FileTree} {dir mid : Place} {a : List (List Char)} {s : List Char}
    {bytes : ByteArray} (h : t.Leads dir a mid) (hs : ¬ (s = [] ∨ s = ['.'])) (hup : s ≠ ['.', '.'])
    (hf : t.entryAt? (mid ++ [String.ofList s]) = some (.file bytes)) (followLast : Bool) (links : Nat) :
    t.locateFrom followLast links dir (a ++ [s]) = .ok (mid ++ [String.ofList s]) := by
  rw [h.locateFrom_append, locateFrom, if_neg hs, if_neg hup]
  simp only [hf, List.isEmpty_nil, if_true]

theorem Leads.split {t : FileTree} {dir last : Place} {a b : List (List Char)} (h : t.Leads dir (a ++ b) last) :
    ∃ mid, t.Leads dir a mid ∧ t.Leads mid b last := by
  induction a generalizing dir with
  | nil => exact ⟨dir, .done dir, h⟩
  | cons s a ih =>
    rw [List.cons_append] at h
    cases h with
    | stay hs h =>
      obtain ⟨mid, ha, hb⟩ := ih h
      exact ⟨mid, .stay hs ha, hb⟩
    | up h =>
      obtain ⟨mid, ha, hb⟩ := ih h
      exact ⟨mid, .up ha, hb⟩
    | down hs hup hd h =>
      obtain ⟨mid, ha, hb⟩ := ih h
      exact ⟨mid, .down hs hup hd ha, hb⟩

theorem Leads.of_trailing {t : FileTree} {dir last : Place} {a : List (List Char)}
    (h : t.Leads dir (a ++ [[]]) last) : t.Leads dir a last := by
  obtain ⟨mid, ha, hb⟩ := h.split
  cases hb with
  | stay _ h =>
    cases h
    exact ha
  | down hs => exact absurd (Or.inl rfl) hs

theorem Leads.of_skipped {t : FileTree} {dir : Place} {a : List (List Char)}
    (h : ∀ s ∈ a, Component.ofSegment? false s = none) : t.Leads dir a dir := by
  induction a with
  | nil => exact .done dir
  | cons s a ih =>
    have hs := Component.ofSegment?_eq_none.1 (h s List.mem_cons_self)
    exact .stay hs (ih fun s' hs' => h s' (List.mem_cons_of_mem _ hs'))

theorem Leads.congr {t : FileTree} {dir last : Place} {a b : List (List Char)} (h : t.Leads dir a last)
    (hab : Path.inner a = Path.inner b) : t.Leads dir b last := by
  induction h generalizing b with
  | done dir =>
    apply Leads.of_skipped
    exact List.filterMap_eq_nil_iff.1 hab.symm
  | stay hs _ ih =>
    apply ih
    rw [← hab, Path.inner, Path.inner, List.filterMap_cons_none (Component.ofSegment?_eq_none.2 hs)]
  | up _ ih =>
    rw [Path.inner, List.filterMap_cons_some (Component.ofSegment?_eq_up.2 rfl)] at hab
    obtain ⟨skip, s, rest, rfl, hskip, hs, hrest⟩ := List.filterMap_eq_cons_iff.1 hab.symm
    rw [Component.ofSegment?_eq_up.1 hs]
    exact (Leads.of_skipped hskip).append (.up (ih hrest.symm))
  | down hs hup hd _ ih =>
    rw [Path.inner, List.filterMap_cons_some (Component.ofSegment?_eq_name.2 ⟨hs, hup, rfl⟩)] at hab
    obtain ⟨skip, s', rest, rfl, hskip, hs', hrest⟩ := List.filterMap_eq_cons_iff.1 hab.symm
    obtain ⟨hstay', hup', heq⟩ := Component.ofSegment?_eq_name.1 hs'
    refine (Leads.of_skipped hskip).append (.down hstay' hup' (by rwa [heq]) ?_)
    rw [heq]
    exact ih hrest.symm

theorem LinkFree.locateFrom_ok {t : FileTree} (hl : t.LinkFree) {followLast : Bool} {links : Nat} {dir place : Place}
    {segments : List (List Char)} (h : t.locateFrom followLast links dir segments = .ok place) :
    t.Leads dir segments place ∨ ∃ a s mid bytes, segments = a ++ [s] ∧ ¬ (s = [] ∨ s = ['.']) ∧ s ≠ ['.', '.'] ∧
      t.Leads dir a mid ∧ place = mid ++ [String.ofList s] ∧ t.entryAt? place = some (.file bytes) := by
  induction segments generalizing dir with
  | nil =>
    rw [locateFrom] at h
    cases h
    exact Or.inl (.done _)
  | cons s rest ih =>
    -- one step changes the directory to `dir'`; what follows is the induction hypothesis there
    have hstep (dir' : Place) (h' : t.locateFrom followLast links dir' rest = .ok place)
        (hone : ∀ last, ∀ rest, t.Leads dir' rest last → t.Leads dir (s :: rest) last) :
        t.Leads dir (s :: rest) place ∨ ∃ a s' mid bytes, s :: rest = a ++ [s'] ∧ ¬ (s' = [] ∨ s' = ['.']) ∧
          s' ≠ ['.', '.'] ∧ t.Leads dir a mid ∧ place = mid ++ [String.ofList s'] ∧
          t.entryAt? place = some (.file bytes) := by
      rcases ih h' with h | ⟨a, s', mid, bytes, rfl, hs', hup', ha, hplace, hfile⟩
      · exact Or.inl (hone _ _ h)
      · exact Or.inr ⟨s :: a, s', mid, bytes, rfl, hs', hup', hone _ _ ha, hplace, hfile⟩
    rw [locateFrom] at h
    split at h
    · next hs => exact hstep dir h fun last rest => .stay hs
    · next hs =>
      split at h
      · next hup =>
        subst hup
        exact hstep dir.dropLast h fun last rest => .up
      · next hup =>
        simp only at h
        split at h
        · cases h
        · next hd => exact hstep _ h fun last rest => .down hs hup hd
        · next bytes hfile =>
          split at h
          · next hrest =>
            cases h
            obtain rfl := List.isEmpty_iff.1 hrest
            exact Or.inr ⟨[], s, dir, bytes, rfl, hs, hup, .done dir, rfl, hfile⟩
          · cases h
        · next target hlink => exact absurd hlink (hl.entryAt?_ne_link _ _)

/-- The path leads to a directory through directories. -/
structure LeadsTo (t : FileTree) (path : Path) (dir : Place) : Prop where
  sound : pathFault? path = none
  leads : t.Leads (start path t.workingDirectory) path.segments dir

theorem LeadsTo.locate_eq {t : FileTree} {path : Path} {dir : Place} (h : t.LeadsTo path dir) (followLast : Bool) :
    t.locate followLast path = .ok dir := by
  simp only [locate, h.sound]
  exact h.leads.locateFrom_eq followLast maxLinks

theorem LinkFree.leadsTo_of_locate {t : FileTree} (hl : t.LinkFree) {path : Path} {dir : Place} {followLast : Bool}
    (h : t.locate followLast path = .ok dir) (hd : t.entryAt? dir = some .directory) : t.LeadsTo path dir := by
  simp only [locate] at h
  split at h
  · cases h
  · next hp =>
    rcases hl.locateFrom_ok h with h | ⟨a, s, mid, bytes, -, -, -, -, -, hfile⟩
    · exact ⟨hp, h⟩
    · rw [hd] at hfile
      cases hfile

theorem pathFault?_eq_none {path : Path} : pathFault? path = none ↔ path.text ≠ "" ∧ '\x00' ∉ path.text.toList := by
  simp only [pathFault?]
  split
  · next h => simp_all
  · next h =>
    split
    · next hc => simp_all
    · next hc => simp_all

theorem IsName.isAbsolute_eq {name : String} (hn : IsName name) : (Path.mk name).isAbsolute = false := by
  have h : name.toList.head? ≠ some '/' := fun h => hn.no_slash (List.mem_of_head? h)
  simpa [Path.isAbsolute] using h

theorem IsName.not_stay {name : String} (hn : IsName name) : ¬ (name.toList = [] ∨ name.toList = ['.']) := by
  rintro (h | h)
  · exact hn.ne_empty h
  · exact hn.ne_here h

theorem Leads.names {t : FileTree} (dir : Place) {names : List String} (hn : ∀ name ∈ names, IsName name)
    (hd : ∀ k < names.length, t.entryAt? (dir ++ names.take (k + 1)) = some .directory) :
    t.Leads dir (names.map String.toList) (dir ++ names) := by
  induction names generalizing dir with
  | nil => simpa using .done dir
  | cons name names ih =>
    have hname := hn name List.mem_cons_self
    have hofList : String.ofList name.toList = name := String.ofList_toList
    rw [List.map_cons, List.append_cons]
    apply Leads.down hname.not_stay hname.ne_up
    · simpa [hofList] using hd 0 (by simp)
    · rw [hofList]
      apply ih _ fun n h => hn n (List.mem_cons_of_mem _ h)
      intro k hk
      simpa using hd (k + 1) (by simpa using hk)

theorem IsName.segments_eq {name : String} (hn : IsName name) : (Path.mk name).segments = [name.toList] :=
  splitAt_of_notMem hn.no_slash

theorem IsName.leadsTo {t : FileTree} {name : String} (hn : IsName name)
    (hd : t.entryAt? (t.workingDirectory ++ [name]) = some .directory) :
    t.LeadsTo ⟨name⟩ (t.workingDirectory ++ [name]) := by
  constructor
  · rw [pathFault?_eq_none]
    refine ⟨?_, hn.no_nul⟩
    rintro rfl
    exact hn.ne_empty rfl
  · rw [start, hn.isAbsolute_eq, hn.segments_eq]
    have hnames : ∀ n ∈ [name], IsName n := by simpa using hn
    exact Leads.names t.workingDirectory hnames (by simpa using hd)

theorem IsName.component_eq {name : String} (hn : IsName name) (first : Bool) :
    Component.ofSegment? first name.toList = some (.name name) := by
  have hinner := Component.ofSegment?_eq_name.2 ⟨hn.not_stay, hn.ne_up, String.ofList_toList⟩
  cases first with
  | true => rw [Component.ofSegment?_first, if_neg hn.ne_here, hinner]
  | false => exact hinner

theorem IsName.components_join {path : Path} {name : String} (hn : IsName name) (hp : path.text ≠ "") :
    (path.join ⟨name⟩).components = path.components ++ [.name name] := by
  rw [Path.components_join hp hn.isAbsolute_eq, hn.segments_eq]
  simp [Path.inner, hn.component_eq]

theorem IsName.components_eq {name : String} (hn : IsName name) : (Path.mk name).components = [.name name] := by
  rw [Path.components_relative hn.isAbsolute_eq hn.segments_eq, hn.component_eq]
  rfl

theorem IsName.hasExtension_eq {path : Path} {name : String} (hn : IsName name)
    (h : path.components.getLast? = some (.name name)) (extensions : List String) :
    hasExtension extensions path = hasExtension extensions ⟨name⟩ := by
  simp [hasExtension, Path.fileName?, h, hn.components_eq]

theorem pathFault?_join {p q : Path} (hp : pathFault? p = none) (hq : q.isAbsolute = false)
    (hnul : '\x00' ∉ q.text.toList) : pathFault? (p.join q) = none := by
  obtain ⟨hne, hpnul⟩ := pathFault?_eq_none.1 hp
  obtain ⟨a, hjoin, ha⟩ := Path.join_text hne hq
  have hmem : '\x00' ∉ a := by
    rcases ha with ha | ha
    · rwa [ha] at hpnul
    · intro h
      exact hpnul (by simp [ha, h])
  refine pathFault?_eq_none.2 ⟨fun h => ?_, ?_⟩
  · simp [h] at hjoin
  · rw [hjoin]
    simp [hmem, hnul]

theorem start_join {p q : Path} (hp : p.text ≠ "") (hq : q.isAbsolute = false) (dir : Place) :
    start (p.join q) dir = start p dir := by
  simp only [start, Path.isAbsolute_join hp hq]

theorem pathFault?_congr {p q : Path} (h : p.components = q.components) :
    pathFault? p = none ↔ pathFault? q = none := by
  have hempty {r : Path} : r.text ≠ "" ↔ r.components ≠ [] := by
    refine ⟨Path.components_ne_nil, fun hr htext => hr ?_⟩
    obtain ⟨text⟩ := r
    subst htext
    rfl
  rw [pathFault?_eq_none, pathFault?_eq_none, hempty, hempty, Path.mem_text_iff (by decide) (by decide),
    Path.mem_text_iff (by decide) (by decide), Path.inner_segments, Path.inner_segments, h]

theorem LeadsTo.congr {t : FileTree} {p q : Path} {dir : Place} (hp : t.LeadsTo p dir)
    (h : p.components = q.components) : t.LeadsTo q dir := by
  refine ⟨(pathFault?_congr h).1 hp.sound, ?_⟩
  rw [start, Path.isAbsolute_eq_contains, ← h, ← Path.isAbsolute_eq_contains]
  apply hp.leads.congr
  rw [Path.inner_segments, Path.inner_segments, h]

theorem LeadsTo.join_segments {t : FileTree} {p q : Path} {dir : Place} (h : t.LeadsTo p dir)
    (hq : q.isAbsolute = false) :
    ∃ a, (p.join q).segments = a ++ q.segments ∧ t.Leads (start (p.join q) t.workingDirectory) a dir := by
  have hne := (pathFault?_eq_none.1 h.sound).1
  obtain ⟨a, hjoin, ha⟩ := Path.segments_join hne hq
  refine ⟨a, hjoin, ?_⟩
  rw [start_join hne hq]
  rcases ha with ha | ha
  · rw [← ha]
    exact h.leads
  · apply Leads.of_trailing
    rw [← ha]
    exact h.leads

theorem LeadsTo.join_directory {t : FileTree} {path : Path} {dir : Place} {name : String} (h : t.LeadsTo path dir)
    (hn : IsName name) (hd : t.entryAt? (dir ++ [name]) = some .directory) :
    t.LeadsTo (path.join ⟨name⟩) (dir ++ [name]) := by
  obtain ⟨a, hjoin, ha⟩ := h.join_segments hn.isAbsolute_eq
  refine ⟨pathFault?_join h.sound hn.isAbsolute_eq hn.no_nul, ?_⟩
  rw [hjoin, hn.segments_eq]
  apply ha.append
  have hname : String.ofList name.toList = name := String.ofList_toList
  exact .down hn.not_stay hn.ne_up (by rwa [hname]) (by rw [hname]; exact .done _)

theorem LeadsTo.locate_join_file {t : FileTree} {path : Path} {dir : Place} {name : String} {bytes : ByteArray}
    (h : t.LeadsTo path dir) (hn : IsName name) (hf : t.entryAt? (dir ++ [name]) = some (.file bytes))
    (followLast : Bool) : t.locate followLast (path.join ⟨name⟩) = .ok (dir ++ [name]) := by
  obtain ⟨a, hjoin, ha⟩ := h.join_segments hn.isAbsolute_eq
  have hname : String.ofList name.toList = name := String.ofList_toList
  simp only [locate, pathFault?_join h.sound hn.isAbsolute_eq hn.no_nul]
  rw [hjoin, hn.segments_eq, ha.locateFrom_file hn.not_stay hn.ne_up (by rwa [hname]), hname]

end FileTree

end Granularity
