import Granularity.Proofs.Ascent
import Granularity.Proofs.Links
import Granularity.Proofs.Writing

/-!
Where a file can be written. On a way by names from a directory, the directories that are missing are made. Only two
things stop a file: a directory in its place, and another file where the way needs a directory.
-/

namespace Granularity

namespace FileTree

variable {t t' : FileTree} {path : Path} {base dir mid : Place} {names rest : List String} {n m : String} {e : Entry}

/-- The path leads through directories to `base`, and on from there by names. -/
structure GoesBy (t : FileTree) (path : Path) (base : Place) (names : List String) : Prop where
  no_nul : '\x00' ∉ path.text.toList
  named : ∀ n ∈ names, IsName n
  directory : t.entryAt? base = some .directory
  way : ∃ front, path.segments = front ++ names.map String.toList ∧ t.Leads (start path t.workingDirectory) front base

/-- The tree grows by an entry below `base`, and by the directories on the way to it. -/
structure Grown (t t' : FileTree) (base : Place) (names : List String) (e : Entry) : Prop where
  workingDirectory : t'.workingDirectory = t.workingDirectory
  entry : ∀ q, t'.entryAt? q = if q = base ++ names then some e
    else if base <+: q ∧ q <+: base ++ names then some .directory else t.entryAt? q

/-- What stops a file from being written: a directory in its place, or a file where the way to it needs a directory. -/
inductive Obstacle (t : FileTree) (base : Place) (names : List String) : Fault → Prop where
  | directory : t.entryAt? (base ++ names) = some .directory → Obstacle t base names .isDirectory
  | file {p : List String} {bytes : ByteArray} : p <+: names → p ≠ names →
      t.entryAt? (base ++ p) = some (.file bytes) → Obstacle t base names .notDirectory

theorem ne_nil_of_file {p : List String} {bytes : ByteArray} (hbase : t.entryAt? base = some .directory)
    (hfile : t.entryAt? (base ++ p) = some (.file bytes)) : p ≠ [] := by
  rintro rfl
  rw [List.append_nil, hbase] at hfile
  cases hfile

theorem obstacle_cons {fault : Fault} (hbase : t.entryAt? base = some .directory)
    (hd : t.entryAt? (base ++ [n]) = some .directory) :
    t.Obstacle base (n :: rest) fault ↔ t.Obstacle (base ++ [n]) rest fault := by
  constructor
  · intro h
    cases h with
    | directory h => exact .directory (by simpa using h)
    | file hp hne hfile =>
      obtain ⟨m, p, rfl⟩ := List.exists_cons_of_ne_nil (ne_nil_of_file hbase hfile)
      obtain ⟨rfl, hrest⟩ := List.cons_prefix_cons.1 hp
      exact .file hrest (fun heq => hne (heq ▸ rfl)) (by simpa using hfile)
  · intro h
    cases h with
    | directory h => exact .directory (by simpa using h)
    | file hp hne hfile =>
      exact .file (List.cons_prefix_cons.2 ⟨rfl, hp⟩) (fun heq => hne (List.cons.inj heq).2) (by simpa using hfile)

theorem Leads.mono {segments : List (List Char)} (h : t.Leads dir segments mid)
    (hd : ∀ q, t.entryAt? q = some .directory → t'.entryAt? q = some .directory) : t'.Leads dir segments mid := by
  induction h with
  | done dir => exact .done dir
  | stay hs _ ih => exact .stay hs ih
  | up _ ih => exact .up ih
  | down hs hup hdown _ ih => exact .down hs hup (hd _ hdown) ih

theorem Leads.placeToWrite_append {a b : List (List Char)} (h : t.Leads dir a mid)
    (hb : b.all List.isEmpty = false) (links : Nat) :
    t.placeToWrite links dir (a ++ b) = t.placeToWrite links mid b := by
  induction h with
  | done => rfl
  | stay hs _ ih =>
    rw [List.cons_append, placeToWrite, if_pos hs]
    exact ih
  | up _ ih =>
    rw [List.cons_append, placeToWrite, if_neg (by simp), if_pos rfl]
    exact ih
  | @down dir last s rest hs hup hd _ ih =>
    have hsolid : ¬ (rest ++ b ≠ [] ∧ (rest ++ b).all List.isEmpty = true) := by
      rintro ⟨-, hall⟩
      rw [List.all_append, hb, Bool.and_false] at hall
      cases hall
    rw [List.cons_append, placeToWrite, if_neg hs, if_neg hup, if_neg hsolid]
    simp only [hd]
    exact ih

theorem Grown.directory {q : Place} (h : Grown t t' base names .directory) (hq : t.entryAt? q = some .directory) :
    t'.entryAt? q = some .directory := by
  rw [h.entry]
  split_ifs
  · rfl
  · rfl
  · exact hq

theorem Grown.refl (h : t.entryAt? base = some .directory) : Grown t t base [] .directory := by
  refine ⟨rfl, fun q => ?_⟩
  rw [List.append_nil]
  split_ifs with hq hbetween
  · rw [hq, h]
  · exact absurd (hbetween.2.eq_of_length_le hbetween.1.length_le) hq
  · rfl

theorem Grown.put (h : Grown t t' base names .directory) (n : String) (e : Entry) :
    Grown t (t'.put (base ++ names ++ [n]) e) base (names ++ [n]) e := by
  refine ⟨(workingDirectory_put _ _ _).trans h.workingDirectory, fun q => ?_⟩
  rw [entryAt?_put t' (by simp), h.entry, ← List.append_assoc]
  by_cases hq : q = base ++ names ++ [n]
  · rw [if_pos hq, if_pos hq]
  · rw [if_neg hq, if_neg hq]
    by_cases hplace : q = base ++ names
    · rw [if_pos hplace, if_pos ⟨hplace ▸ List.prefix_append _ _, hplace ▸ List.prefix_append _ _⟩]
    · have hiff : q <+: base ++ names ++ [n] ↔ q <+: base ++ names := by
        rw [List.prefix_concat_iff]
        exact or_iff_right hq
      simp only [if_neg hplace, hiff]

theorem Grown.entryAt?_next (h : Grown t t' base names e) (hnone : t.entryAt? (base ++ (names ++ [n])) = none) :
    t'.entryAt? (base ++ names ++ [n]) = none := by
  rw [h.entry, if_neg (by simp), if_neg, List.append_assoc, hnone]
  rintro ⟨-, hlong⟩
  simpa using hlong.length_le

/-- A directory at the first name of the way is a matter of the tree before. -/
theorem Grown.cons (hbase : t.entryAt? base = some .directory) (h : Grown t t' (base ++ [n]) rest e) :
    Grown t t' base (n :: rest) e := by
  refine ⟨h.workingDirectory, fun q => ?_⟩
  rw [h.entry, List.append_assoc, List.singleton_append]
  split_ifs with hq hbelow habove habove
  · rfl
  · rfl
  · exact absurd ⟨(List.prefix_append _ _).trans hbelow.1, hbelow.2⟩ habove
  · -- between `base` and the first name there is `base` alone
    obtain ⟨more, rfl⟩ := habove.1
    cases more with
    | nil => rw [List.append_nil, hbase]
    | cons m more =>
      obtain ⟨rfl, -⟩ := List.cons_prefix_cons.1 ((List.prefix_append_right_inj base).1 habove.2)
      exact absurd ⟨by simp, habove.2⟩ hbelow
  · rfl

theorem exists_parent?_of_name {a : List (List Char)} (h : path.segments = a ++ [n.toList]) (hn : IsName n) :
    ∃ q, path.parent? = some q ∧ q.isAbsolute = path.isAbsolute ∧ Path.inner q.segments = Path.inner a := by
  have hmarks : path.marks = path.rootMark ++ (Path.marksFrom path.componentAt 0 a ++ [(.name n, a.length)]) := by
    have hlast : path.componentAt a.length n.toList = some (.name n) := hn.component_eq _
    rw [Path.marks_eq, h, Path.marksFrom_append]
    simp [Path.marksFrom, hlast]
  have hdepth : 0 < path.depth := by
    obtain ⟨marks, hsplit, hroot⟩ := Path.exists_marks path
    rw [Path.depth_eq hsplit hroot, List.append_cancel_left (hsplit.symm.trans hmarks)]
    simp
  obtain ⟨q, hparent, hcomponents, -⟩ := Path.exists_parent? hdepth
  obtain ⟨habs, -⟩ := Path.depth_of_dropLast hdepth hcomponents
  have hlast : path.components.dropLast ++ [.name n] = path.components := by
    rw [Path.components, hmarks, ← List.append_assoc, List.map_append, List.map_singleton, List.dropLast_concat]
  have hinner : Path.inner path.segments = Path.inner a ++ [.name n] := by
    simp [h, Path.inner, hn.component_eq]
  rw [Path.inner_segments, ← hlast, List.filter_append, ← hcomponents, ← Path.inner_segments] at hinner
  exact ⟨q, hparent, habs, List.append_cancel_right hinner⟩

theorem segments_parent? {a : List (List Char)} {q : Path} (h : path.segments = a ++ [m.toList, n.toList])
    (hm : IsName m) (hn : IsName n) (hq : path.parent? = some q) : q.segments = a ++ [m.toList] := by
  have hname (j : Nat) {name : String} (hname : IsName name) : path.componentAt j name.toList = some (.name name) :=
    hname.component_eq _
  have hmarks : path.marks = (path.rootMark ++ Path.marksFrom path.componentAt 0 a) ++
      [(.name m, a.length), (.name n, a.length + 1)] := by
    rw [Path.marks_eq, h, Path.marksFrom_append, ← List.append_assoc]
    simp [Path.marksFrom, hname _ hm, hname _ hn]
  obtain rfl : path.through a.length = q := Option.some.inj ((Path.parent?_of_concat hmarks (by simp)).symm.trans hq)
  -- the first segment of an absolute path is empty, so `m` is not the first
  have hfirst : ¬ (path.isAbsolute && a.length == 0) = true := by
    intro hzero
    obtain ⟨habs, hnil⟩ := Bool.and_eq_true_iff.1 hzero
    obtain ⟨s, rest, hs⟩ := Path.isAbsolute_iff_segments.1 habs
    obtain rfl : a = [] := by simpa using hnil
    rw [h] at hs
    exact hm.ne_empty (List.cons.inj hs).1
  rw [Path.through, if_neg hfirst, Path.segments_slice, h, List.take_length_add_append]
  rfl

theorem Rooted.none_below (hr : t.Rooted) (h : t.entryAt? (base ++ [n]) = none) (p : List String) :
    t.entryAt? (base ++ n :: p) = none := by
  rw [List.append_cons]
  cases hentry : t.entryAt? (base ++ [n] ++ p) with
  | none => rfl
  | some e =>
    by_cases hp : p = []
    · rw [hp, List.append_nil, h] at hentry
      cases hentry
    · rw [hr.directory_of_append hp hentry] at h
      cases h

theorem obstacle_single {fault : Fault} (hbase : t.entryAt? base = some .directory) :
    t.Obstacle base [n] fault ↔ fault = .isDirectory ∧ t.entryAt? (base ++ [n]) = some .directory := by
  constructor
  · intro h
    cases h with
    | directory h => exact ⟨rfl, h⟩
    | file hp hne hfile =>
      have hnil := List.prefix_nil.1 ((List.prefix_concat_iff.1 hp).resolve_left hne)
      exact absurd hnil (ne_nil_of_file hbase hfile)
  · rintro ⟨rfl, h⟩
    exact .directory h

theorem Rooted.not_obstacle (hr : t.Rooted) (hbase : t.entryAt? base = some .directory)
    (hnone : t.entryAt? (base ++ [n]) = none) (fault : Fault) : ¬ t.Obstacle base (n :: rest) fault := by
  intro h
  cases h with
  | directory h =>
    rw [hr.none_below hnone] at h
    cases h
  | file hp _ hfile =>
    obtain ⟨m, p, rfl⟩ := List.exists_cons_of_ne_nil (ne_nil_of_file hbase hfile)
    obtain ⟨rfl, -⟩ := List.cons_prefix_cons.1 hp
    rw [hr.none_below hnone] at hfile
    cases hfile

theorem Rooted.obstacle_behind_file {old : ByteArray} {fault : Fault} (hr : t.Rooted)
    (hfile : t.entryAt? (base ++ [n]) = some (.file old)) (hne : rest ≠ []) (h : t.Obstacle base (n :: rest) fault) :
    fault = .notDirectory := by
  cases h with
  | directory h =>
    rw [List.append_cons] at h
    rw [hr.directory_of_append hne h] at hfile
    cases hfile
  | file => rfl

namespace GoesBy

theorem deeper (h : t.GoesBy path base (n :: rest)) (hd : t.entryAt? (base ++ [n]) = some .directory) :
    t.GoesBy path (base ++ [n]) rest := by
  obtain ⟨front, hsegments, hleads⟩ := h.way
  have hn := h.named n List.mem_cons_self
  refine ⟨h.no_nul, fun m hm => h.named m (List.mem_cons_of_mem n hm), hd, front ++ [n.toList], by simp [hsegments], ?_⟩
  refine hleads.append (.down hn.not_stay hn.ne_up ?_ ?_)
  · rwa [String.ofList_toList]
  · rw [String.ofList_toList]
    exact .done _

theorem grown (h : t.GoesBy path base (names ++ rest)) (hg : Grown t t' base names .directory) :
    t'.GoesBy path (base ++ names) rest := by
  obtain ⟨front, hsegments, hleads⟩ := h.way
  have hnames : ∀ n ∈ names, IsName n := fun n hn => h.named n (List.mem_append_left rest hn)
  have hdirectories : ∀ k < names.length, t'.entryAt? (base ++ names.take (k + 1)) = some .directory := by
    intro k _
    rw [hg.entry]
    split_ifs with hq hbetween
    · rfl
    · rfl
    · exact absurd ⟨List.prefix_append _ _, (List.prefix_append_right_inj base).2 (List.take_prefix _ _)⟩ hbetween
  refine ⟨h.no_nul, fun n hn => h.named n (List.mem_append_right names hn), ?_,
    front ++ names.map String.toList, by simp [hsegments], ?_⟩
  · rw [hg.entry, if_pos rfl]
  · rw [hg.workingDirectory]
    exact (hleads.mono fun q => hg.directory).append (.names base hnames hdirectories)

theorem text_ne (h : t.GoesBy path base names) (hne : names ≠ []) : path.text ≠ "" := by
  intro htext
  obtain ⟨front, hsegments, -⟩ := h.way
  obtain ⟨above, last, rfl⟩ := (List.eq_nil_or_concat names).resolve_left hne
  have hempty : path.segments = [[]] := by rw [Path.segments, htext]; rfl
  rw [hempty, List.concat_eq_append, List.map_append, ← List.append_assoc] at hsegments
  have hlast : [] = last.toList := by simpa using congrArg List.getLast? hsegments
  exact (h.named last (by simp)).ne_empty hlast.symm

theorem pathFault?_eq (h : t.GoesBy path base names) (hne : names ≠ []) : pathFault? path = none :=
  pathFault?_eq_none.2 ⟨h.text_ne hne, h.no_nul⟩

theorem parent (h : t.GoesBy path base (names ++ [n])) :
    ∃ q, path.parent? = some q ∧ t.GoesBy q base names := by
  obtain ⟨front, hsegments, hleads⟩ := h.way
  rw [List.map_append, ← List.append_assoc] at hsegments
  obtain ⟨q, hparent, habs, hinner⟩ := exists_parent?_of_name hsegments (h.named n (by simp))
  refine ⟨q, hparent, ?_, fun m hm => h.named m (List.mem_append_left _ hm), h.directory, ?_⟩
  · rw [Path.mem_text_iff (by decide) (by decide), hinner]
    rintro ⟨name, hname, hnul⟩
    refine h.no_nul ((Path.mem_text_iff (by decide) (by decide)).2 ⟨name, ?_, hnul⟩)
    rw [hsegments, Path.inner, List.filterMap_append]
    exact List.mem_append_left _ hname
  · rw [start, habs]
    rcases List.eq_nil_or_concat names with rfl | ⟨above, m, rfl⟩
    · exact ⟨q.segments, by simp, hleads.congr (by simpa using hinner.symm)⟩
    · have hm := h.named m (by simp)
      have hpair : path.segments = front ++ above.map String.toList ++ [m.toList, n.toList] := by simpa using hsegments
      have hq := segments_parent? hpair hm (h.named n (by simp)) hparent
      exact ⟨front, by simpa using hq, hleads⟩

theorem locate_eq (h : t.GoesBy path base names) (hne : names ≠ []) (followLast : Bool) :
    t.locate followLast path = t.locateFrom followLast maxLinks base (names.map String.toList) := by
  obtain ⟨front, hsegments, hleads⟩ := h.way
  simp only [locate, h.pathFault?_eq hne]
  rw [hsegments, hleads.locateFrom_append]

theorem exists_lastSegment? (h : t.GoesBy path base (names ++ [n])) :
    ∃ before, lastSegment? path = some (before, n.toList, false) ∧
      t.locateFrom true maxLinks (start path t.workingDirectory) (before ++ [[]]) =
        t.locateFrom true maxLinks base (names.map String.toList ++ [[]]) := by
  obtain ⟨front, hsegments, hleads⟩ := h.way
  have hn := (h.named n (by simp)).ne_empty
  have hreverse : path.segments.reverse = n.toList :: (front ++ names.map String.toList).reverse := by simp [hsegments]
  have hend : path.segments.getLast? = some n.toList := by simp [hsegments]
  refine ⟨front ++ names.map String.toList, ?_, by rw [List.append_assoc, hleads.locateFrom_append]⟩
  rw [lastSegment?, hreverse, List.dropWhile_cons_of_neg (by simpa using hn), hend]
  simp [hn]

theorem makeEntry_of_none (h : t.GoesBy path base [n]) (hnone : t.entryAt? (base ++ [n]) = none) (e : Entry) :
    t.makeEntry path e = ⟨t.put (base ++ [n]) e, none⟩ := by
  have hway : t.GoesBy path base ([] ++ [n]) := h
  have hn := h.named n List.mem_cons_self
  obtain ⟨before, hlast, hlocate⟩ := hway.exists_lastSegment?
  rw [List.map_nil, List.nil_append, locateFrom_skip (.inl rfl), locateFrom] at hlocate
  simp only [makeEntry, holder, h.pathFault?_eq (by simp), hlast, hlocate, hn.ne_here, hn.ne_up, or_self, if_false,
    String.ofList_toList, hnone]

/-- Whatever is put behind a name that stands for no directory fails there. -/
theorem makeEntry_of_fault {fault : Fault} (h : t.GoesBy path base (n :: rest ++ [m])) (e : Entry)
    (hfault : ∀ s more, t.locateFrom true maxLinks base (n.toList :: s :: more) = .error fault) :
    t.makeEntry path e = ⟨t, some fault⟩ := by
  obtain ⟨before, hlast, hlocate⟩ := h.exists_lastSegment?
  obtain ⟨s, more, hmore⟩ : ∃ s more, rest.map String.toList ++ [[]] = s :: more :=
    List.exists_cons_of_ne_nil (by simp)
  rw [List.map_cons, List.cons_append, hmore, hfault] at hlocate
  simp only [makeEntry, holder, h.pathFault?_eq (by simp), hlast, hlocate]

theorem locateFrom_none (h : t.GoesBy path base (n :: rest)) (hnone : t.entryAt? (base ++ [n]) = none)
    (more : List (List Char)) : t.locateFrom true maxLinks base (n.toList :: more) = .error .missing := by
  have hn := h.named n List.mem_cons_self
  exact locateFrom_missing hn.not_stay hn.ne_up (by rwa [String.ofList_toList])

theorem locateFrom_blocked {bytes : ByteArray} (h : t.GoesBy path base (n :: rest))
    (hfile : t.entryAt? (base ++ [n]) = some (.file bytes)) (s : List Char) (more : List (List Char)) :
    t.locateFrom true maxLinks base (n.toList :: s :: more) = .error .notDirectory := by
  have hn := h.named n List.mem_cons_self
  rw [locateFrom_file hn.not_stay hn.ne_up (by rwa [String.ofList_toList])]
  rfl

theorem makeDirectoryChain_eq (h : t.GoesBy path base (n :: rest)) (hnone : ∀ p, t.entryAt? (base ++ n :: p) = none)
    (k : Nat) : ∃ t', t.makeDirectoryChain (path.ancestors (rest.length + k + 1)) = ⟨t', none⟩ ∧
      Grown t t' base (n :: rest) .directory := by
  have htext := h.text_ne (by simp)
  induction rest using List.reverseRecOn generalizing path k with
  | nil =>
    refine ⟨t.put (base ++ [n]) .directory, ?_, by simpa using (Grown.refl h.directory).put n .directory⟩
    simp [Path.ancestors, makeDirectoryChain, htext, h.makeEntry_of_none (hnone [])]
  | append_singleton rest m ih =>
    have hway : t.GoesBy path base (n :: rest ++ [m]) := h
    obtain ⟨q, hparent, hq⟩ := hway.parent
    obtain ⟨t', hmade, hgrown⟩ := ih hq k (hq.text_ne (by simp))
    have hmissing : t.makeEntry path .directory = ⟨t, some .missing⟩ :=
      hway.makeEntry_of_fault .directory fun s more => h.locateFrom_none (hnone []) (s :: more)
    have hlast := (hway.grown hgrown).makeEntry_of_none (hgrown.entryAt?_next (hnone (rest ++ [m]))) .directory
    refine ⟨t'.put (base ++ (n :: rest) ++ [m]) .directory, ?_, hgrown.put m .directory⟩
    rw [List.length_append, List.length_singleton, Nat.add_right_comm rest.length, Path.ancestors, hparent]
    simp [makeDirectoryChain, htext, hmissing, hmade, hlast]

theorem pathExists_or_empty (h : t.GoesBy path base []) : (path.text.isEmpty || t.pathExists path) = true := by
  obtain ⟨front, hsegments, hleads⟩ := h.way
  by_cases htext : path.text = ""
  · simp [htext]
  · have hto : t.LeadsTo path base := by
      refine ⟨pathFault?_eq_none.2 ⟨htext, h.no_nul⟩, ?_⟩
      rw [hsegments, List.map_nil, List.append_nil]
      exact hleads
    rw [pathExists, locate?, hto.locate_eq]
    simp [Except.toOption]

theorem makeParents_single (h : t.GoesBy path base [n]) : t.makeParents path = ⟨t, none⟩ := by
  have hway : t.GoesBy path base ([] ++ [n]) := h
  obtain ⟨q, hparent, hq⟩ := hway.parent
  simp only [makeParents, hparent, hq.pathExists_or_empty, if_true]

theorem length_le (h : t.GoesBy path base names) : names.length ≤ path.components.length := by
  obtain ⟨front, hsegments, -⟩ := h.way
  have hnames : Path.inner (names.map String.toList) = names.map .name := by
    rw [Path.inner, List.filterMap_map, ← List.filterMap_eq_map]
    exact List.filterMap_congr fun n hn => (h.named n hn).component_eq false
  calc names.length = (Path.inner (names.map String.toList)).length := by rw [hnames, List.length_map]
    _ ≤ (Path.inner path.segments).length := by rw [hsegments, Path.inner, Path.inner, List.filterMap_append]; simp
    _ ≤ path.components.length := by rw [Path.inner_segments]; exact List.length_filter_le _ _

theorem makeParents_none (h : t.GoesBy path base (n :: rest ++ [m]))
    (hnone : ∀ p, t.entryAt? (base ++ n :: p) = none) :
    ∃ t', t.makeParents path = ⟨t', none⟩ ∧ Grown t t' base (n :: rest) .directory := by
  obtain ⟨q, hparent, hq⟩ := h.parent
  have hlength : rest.length + 1 ≤ q.components.length := hq.length_le
  obtain ⟨t', hmade, hgrown⟩ := hq.makeDirectoryChain_eq hnone (q.components.length - rest.length)
  rw [Nat.add_sub_cancel' (by omega)] at hmade
  have hexists : t.pathExists q = false := by
    rw [pathExists, locate?, hq.locate_eq (by simp), List.map_cons, hq.locateFrom_none (hnone [])]
    rfl
  refine ⟨t', ?_, hgrown⟩
  simp [makeParents, hparent, hq.text_ne, hexists, makeDirectories, hmade]

theorem placeToWrite_eq (h : t.GoesBy path base names) (hne : names ≠ []) :
    t.placeToWrite maxLinks (start path t.workingDirectory) path.segments =
      t.placeToWrite maxLinks base (names.map String.toList) := by
  obtain ⟨front, hsegments, hleads⟩ := h.way
  have hsolid : (names.map String.toList).all List.isEmpty = false := by
    obtain ⟨n, rest, rfl⟩ := List.exists_cons_of_ne_nil hne
    simp [(h.named n List.mem_cons_self).ne_empty]
  rw [hsegments, hleads.placeToWrite_append hsolid]

theorem writeBytes_single (h : t.GoesBy path base [n])
    (hl : ∀ target, t.entryAt? (base ++ [n]) ≠ some (.link target)) (bytes : ByteArray) :
    t.writeBytes path bytes =
      if t.entryAt? (base ++ [n]) = some .directory then ⟨t, some .isDirectory⟩
      else ⟨t.put (base ++ [n]) (.file bytes), none⟩ := by
  have hn := h.named n List.mem_cons_self
  have hplace : t.placeToWrite maxLinks base [n.toList] =
      if t.entryAt? (base ++ [n]) = some .directory then .error .isDirectory else .ok (base ++ [n]) := by
    rw [placeToWrite, if_neg hn.not_stay, if_neg hn.ne_up, if_neg (by simp)]
    simp only [String.ofList_toList]
    cases hentry : t.entryAt? (base ++ [n]) with
    | none => simp
    | some e =>
      cases e with
      | directory => simp [placeToWrite]
      | file old => simp
      | link target => exact absurd hentry (hl target)
  simp only [writeBytes, h.pathFault?_eq (by simp), h.placeToWrite_eq (by simp), List.map_cons, List.map_nil, hplace]
  split_ifs <;> rfl

/-- Behind a file no directories are made. Only if it is the parent itself, this does not fail. -/
theorem makeParents_blocked {old : ByteArray} (h : t.GoesBy path base (n :: rest ++ [m]))
    (hfile : t.entryAt? (base ++ [n]) = some (.file old)) :
    t.makeParents path = ⟨t, none⟩ ∨ t.makeParents path = ⟨t, some .notDirectory⟩ := by
  obtain ⟨q, hparent, hq⟩ := h.parent
  rcases List.eq_nil_or_concat rest with rfl | ⟨above, last, rfl⟩
  · have hn := hq.named n List.mem_cons_self
    have hexists : t.pathExists q = true := by
      rw [pathExists, locate?, hq.locate_eq (by simp), List.map_cons, locateFrom_file hn.not_stay hn.ne_up
        (by rwa [String.ofList_toList])]
      simp [Except.toOption]
    simp [makeParents, hparent, hexists]
  · have hway : t.GoesBy q base (n :: above ++ [last]) := by simpa using hq
    have hmade : t.makeEntry q .directory = ⟨t, some .notDirectory⟩ :=
      hway.makeEntry_of_fault .directory (hq.locateFrom_blocked hfile)
    simp only [makeParents, hparent, makeDirectories, Path.ancestors, makeDirectoryChain, hmade]
    split_ifs <;> simp

theorem writeFile_single (h : t.GoesBy path base [n]) (hl : ∀ target, t.entryAt? (base ++ [n]) ≠ some (.link target))
    (bytes : ByteArray) : t.writeFile path bytes =
      if t.entryAt? (base ++ [n]) = some .directory then ⟨t, some .isDirectory⟩
      else ⟨t.put (base ++ [n]) (.file bytes), none⟩ := by
  simp only [writeFile, h.makeParents_single, h.writeBytes_single hl bytes]

theorem writeFile_blocked {old : ByteArray} (h : t.GoesBy path base (n :: rest ++ [m]))
    (hfile : t.entryAt? (base ++ [n]) = some (.file old)) (bytes : ByteArray) :
    t.writeFile path bytes = ⟨t, some .notDirectory⟩ := by
  have hn := h.named n (by simp)
  have hm := (h.named m (by simp)).ne_empty
  have hplace : t.placeToWrite maxLinks base ((n :: rest ++ [m]).map String.toList) = .error .notDirectory := by
    rw [List.cons_append, List.map_cons, placeToWrite, if_neg hn.not_stay, if_neg hn.ne_up, if_neg (by simp [hm])]
    simp only [String.ofList_toList, hfile]
    exact if_neg (by simp)
  rcases h.makeParents_blocked hfile with hmade | hmade
  · simp only [writeFile, hmade, writeBytes, h.pathFault?_eq (by simp), h.placeToWrite_eq (by simp), hplace]
  · simp only [writeFile, hmade]

theorem writeFile_none (h : t.GoesBy path base (n :: rest ++ [m])) (hnone : ∀ p, t.entryAt? (base ++ n :: p) = none)
    (bytes : ByteArray) : (t.writeFile path bytes).fault? = none ∧
      Grown t (t.writeFile path bytes).tree base (n :: rest ++ [m]) (.file bytes) := by
  obtain ⟨t', hmade, hgrown⟩ := h.makeParents_none hnone
  have hnone' := hgrown.entryAt?_next (hnone (rest ++ [m]))
  have hwrite := (h.grown hgrown).writeBytes_single (fun target => by rw [hnone']; exact nofun) bytes
  rw [hnone', if_neg nofun] at hwrite
  simp only [writeFile, hmade, hwrite]
  exact ⟨trivial, hgrown.put m (.file bytes)⟩

end GoesBy

/-- A way by names along which every entry lies in a directory, and without a link. -/
structure PlainWay (t : FileTree) (path : Path) (base : Place) (names : List String) : Prop extends
    GoesBy t path base names where
  ne_nil : names ≠ []
  rooted : t.Rooted
  no_link : ∀ p, p <+: names → ∀ target, t.entryAt? (base ++ p) ≠ some (.link target)

/-- A file is written, with the directories on the way to it, unless one of the two obstacles is there; then the tree
stays as it is. -/
theorem PlainWay.writeFile_spec (h : t.PlainWay path base names) (bytes : ByteArray) :
    (∀ fault, t.Obstacle base names fault → t.writeFile path bytes = ⟨t, some fault⟩) ∧
      ((∀ fault, ¬ t.Obstacle base names fault) → (t.writeFile path bytes).fault? = none ∧
        Grown t (t.writeFile path bytes).tree base names (.file bytes)) := by
  obtain ⟨h, hne, hr, hl⟩ := h
  induction names generalizing base with
  | nil => exact absurd rfl hne
  | cons n rest ih =>
    rcases List.eq_nil_or_concat rest with rfl | ⟨above, last, hrest⟩
    · simp only [obstacle_single h.directory, h.writeFile_single (hl [n] List.prefix_rfl)]
      by_cases hd : t.entryAt? (base ++ [n]) = some .directory
      · rw [if_pos hd]
        exact ⟨fun fault hfault => by rw [hfault.1], fun hfree => absurd ⟨rfl, hd⟩ (hfree .isDirectory)⟩
      · rw [if_neg hd]
        exact ⟨fun fault hfault => absurd hfault.2 hd,
          fun _ => ⟨rfl, by simpa using (Grown.refl h.directory).put n (.file bytes)⟩⟩
    · have hne : rest ≠ [] := by simp [hrest]
      have hway : t.GoesBy path base (n :: above ++ [last]) := by simpa [hrest] using h
      have hnames : n :: rest = n :: above ++ [last] := by simp [hrest]
      cases hentry : t.entryAt? (base ++ [n]) with
      | none =>
        refine ⟨fun fault hfault => absurd hfault (hr.not_obstacle h.directory hentry fault), fun _ => ?_⟩
        rw [hnames]
        exact hway.writeFile_none (hr.none_below hentry) bytes
      | some e =>
        cases e with
        | link target => exact absurd hentry (hl [n] (by simp) target)
        | file old =>
          have hobstacle : t.Obstacle base (n :: rest) .notDirectory := .file (by simp) (by simpa using hne.symm) hentry
          refine ⟨fun fault hfault => ?_, fun hfree => absurd hobstacle (hfree _)⟩
          rw [hway.writeFile_blocked hentry, hr.obstacle_behind_file hentry hne hfault]
        | directory =>
          have hdeeper := ih (h.deeper hentry) hne fun p hp target => by
            simpa using hl (n :: p) (List.cons_prefix_cons.2 ⟨rfl, hp⟩) target
          simp only [obstacle_cons h.directory hentry]
          exact ⟨hdeeper.1, fun hfree => (hdeeper.2 hfree).imp_right fun hgrown => hgrown.cons h.directory⟩

theorem PlainWay.fault?_iff (h : t.PlainWay path base names) (bytes : ByteArray) {fault : Fault} :
    (t.writeFile path bytes).fault? = some fault ↔ t.Obstacle base names fault := by
  obtain ⟨hrefused, hwritten⟩ := h.writeFile_spec bytes
  constructor
  · intro hfault
    by_cases hfree : ∀ other, ¬ t.Obstacle base names other
    · rw [(hwritten hfree).1] at hfault
      cases hfault
    · obtain ⟨other, hother⟩ := not_forall_not.1 hfree
      rw [hrefused other hother] at hfault
      cases hfault
      exact hother
  · intro hobstacle
    rw [hrefused fault hobstacle]

end FileTree

end Granularity
