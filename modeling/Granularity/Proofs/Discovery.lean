import Granularity.Proofs.Readings
import Granularity.Proofs.Stages
import Granularity.Proofs.Walks

namespace Granularity

namespace FileTree

variable {t : FileTree}

theorem WellFormed.nodup_children (hw : t.WellFormed) (dir : Place) : (t.children dir).Nodup := by
  rw [children, (List.mergeSort_perm _ _).nodup_iff]
  apply List.Pairwise.filterMap _ _ (List.pairwise_map.1 hw.distinct)
  intro a b hne x hx y hy hxy
  -- two places in one directory with one name are the same
  rw [Option.ite_none_right_eq_some] at hx hy
  obtain ⟨hadir, hx⟩ := hx
  obtain ⟨hbdir, hy⟩ := hy
  apply hne
  rw [← List.dropLast_append_getLast? x hx, ← List.dropLast_append_getLast? y hy, hadir, hbdir, hxy]

theorem WellFormed.rising_children (hw : t.WellFormed) (dir : Place) : (t.children dir).Pairwise (· < ·) := by
  refine ((sorted_mergeSort _).and (hw.nodup_children dir)).imp ?_
  rintro a b ⟨hle, hne⟩
  by_contra hlt
  exact hne (String.le_antisymm hle (String.not_lt.1 hlt))

def Visit.path : Visit → Path
  | .file path => path
  | .failed failure => failure.path

theorem sublist_filterMap_file? (visits : List Visit) :
    (visits.filterMap Visit.file?).Sublist (visits.map Visit.path) := by
  induction visits with
  | nil => exact .slnil
  | cons v visits ih =>
    cases v with
    | file path => exact ih.cons_cons path
    | failed failure => exact ih.cons failure.path

theorem file_mem_walkFrom {path p : Path} {extensions : List String} (h : p ∈ (t.walk path extensions).files) :
    .file p ∈ t.walkFrom path := by
  obtain ⟨v, hv, hfile⟩ := List.mem_filterMap.1 (List.mem_filter.1 h).1
  cases v with
  | failed f => cases hfile
  | file q =>
    cases hfile
    exact hv

theorem failed_mem_walkFrom {path : Path} {f : Failure} {extensions : List String}
    (h : f ∈ (t.walk path extensions).failures) : .failed f ∈ t.walkFrom path := by
  obtain ⟨v, hv, hfailed⟩ := List.mem_filterMap.1 h
  cases v with
  | file p => cases hfailed
  | failed g =>
    cases hfailed
    exact hv

theorem IsName.join_ne_empty {path : Path} {name : String} (hn : IsName name) (hp : path.text ≠ "") :
    (path.join ⟨name⟩).text ≠ "" := by
  intro h
  have hnil : (path.join ⟨name⟩).components = [] := by
    rw [show path.join ⟨name⟩ = ⟨""⟩ by rw [← h]]
    rfl
  rw [hn.components_join hp] at hnil
  simp at hnil

/-- The lists part at two names, the smaller one in the first list. -/
def Precedes (x y : List Component) : Prop :=
  ∃ front a b u v, x = front ++ Component.name a :: u ∧ y = front ++ Component.name b :: v ∧ a < b

theorem Precedes.incomparable {x y : List Component} (h : Precedes x y) : ¬ x <+: y ∧ ¬ y <+: x := by
  obtain ⟨front, a, b, u, v, rfl, rfl, hlt⟩ := h
  have hne : a ≠ b := fun hab => String.lt_irrefl b (hab ▸ hlt)
  simp [List.prefix_append_right_inj, List.cons_prefix_cons, hne, hne.symm]

/-- Paths below one, each of them before the next at the first component where they differ. -/
structure Spread (base : List Component) (paths : List Path) : Prop where
  below : ∀ p ∈ paths, base <+: p.components
  rising : paths.Pairwise fun p q => Precedes p.components q.components

namespace Spread

variable {base : List Component} {paths : List Path}

theorem single {p : Path} (h : p.components = base) : Spread base [p] := ⟨by simp [h], by simp⟩

theorem flatMap {names : List String} (hn : names.Pairwise (· < ·)) {f : String → List Path}
    (h : ∀ name ∈ names, Spread (base ++ [.name name]) (f name)) : Spread base (names.flatMap f) where
  below p hp := by
    obtain ⟨name, hname, hp⟩ := List.mem_flatMap.1 hp
    exact (List.prefix_append _ _).trans ((h name hname).below p hp)
  rising := by
    refine List.pairwise_flatMap.2 ⟨fun name hname => (h name hname).rising, ?_⟩
    refine hn.imp_of_mem fun {m n} hm hn hlt p hp q hq => ?_
    obtain ⟨u, hu⟩ := (h m hm).below p hp
    obtain ⟨v, hv⟩ := (h n hn).below q hq
    exact ⟨base, m, n, u, v, by simp [← hu], by simp [← hv], hlt⟩

theorem sublist {paths' : List Path} (h : Spread base paths) (hsub : paths'.Sublist paths) : Spread base paths' :=
  ⟨fun p hp => h.below p (hsub.subset hp), h.rising.sublist hsub⟩

theorem distinct (h : Spread base paths) : paths.Pairwise fun p q => p.components ≠ q.components := by
  apply h.rising.imp
  intro p q hpq heq
  rw [heq] at hpq
  exact hpq.incomparable.1 List.prefix_rfl

end Spread

theorem WellFormed.spread_visits (hw : t.WellFormed) (opened : List OpenDirectory) (path : Path) (dir : Place)
    (hp : path.text ≠ "") : Spread path.components ((t.visits opened path dir).map Visit.path) := by
  induction opened, path, dir using visits.induct t with
  | case1 opened path dir ihdir ihlink =>
    rw [visits, List.map_flatMap]
    -- what is met below a name has the name in its path, so the names decide between their paths
    apply Spread.flatMap (hw.rising_children dir)
    intro name hname
    obtain ⟨hn, e, he⟩ := hw.child hname
    have hchild := hn.join_ne_empty hp
    rw [← hn.components_join hp]
    simp only
    split
    · next hnone => simp [hnone] at he
    · exact .single rfl
    · next hentry => exact ihdir name hentry hchild
    · split
      · exact .single rfl
      · next target _ =>
        split
        · next htarget =>
          split
          · exact .single rfl
          · next hopen => exact ihlink name target htarget hopen hchild
        · exact .single rfl

theorem ne_empty_of_isDirectory {path : Path} (h : t.isDirectory path = true) : path.text ≠ "" := by
  obtain ⟨dir, hlocate, -⟩ := isDirectory_iff.1 h
  rintro hempty
  simp [locate, pathFault?, hempty] at hlocate

theorem WellFormed.spread_walkFrom (hw : t.WellFormed) (path : Path) :
    Spread path.components ((t.walkFrom path).map Visit.path) := by
  rw [walkFrom]
  split
  · exact .single rfl
  · split
    · exact .single rfl
    · next dir hlocate =>
      split
      · next hdir =>
        have hd : t.isDirectory path = true :=
          isDirectory_iff.2 ⟨dir, hlocate, by simpa [isDirectoryAt] using hdir⟩
        exact hw.spread_visits _ _ _ (ne_empty_of_isDirectory hd)
      · exact .single rfl

theorem WellFormed.spread_walk (hw : t.WellFormed) (path : Path) (extensions : List String) :
    Spread path.components (t.walk path extensions).files :=
  (hw.spread_walkFrom path).sublist (List.filter_sublist.trans (sublist_filterMap_file? _))

end FileTree

/-- The files of a stage in the order of discovery, as seen from the root. -/
def discovered (t : FileTree) (target : Target) : List Path :=
  if t.isDirectory target.directory then
    (t.walk target.directory target.extensions).files.map (·.relativeTo target.root)
  else []

theorem Path.components_join_relativeTo {root directory p : Path} (hroot : root.text ≠ "")
    (h : (root.join directory).components <+: p.components) :
    (root.join (p.relativeTo root)).components = p.components := by
  rcases join_relativeTo hroot (seen_of_below hroot h) with heq | ⟨hcomponents, -⟩
  · rw [heq]
  · exact hcomponents

theorem nodup_discovered {t : FileTree} (hw : t.WellFormed) {root : Path} (hroot : root.text ≠ "") (s : Settings)
    (directory : Path) (label : String) : (discovered t (Analysis.target s root directory label)).Nodup := by
  rw [discovered]
  split
  · have hspread := hw.spread_walk (root.join directory) s.layout.extensions
    refine List.pairwise_map.2 (hspread.distinct.imp_of_mem fun {p q} hp hq hne heq => hne ?_)
    rw [← Path.components_join_relativeTo hroot (hspread.below p hp),
      ← Path.components_join_relativeTo hroot (hspread.below q hq)]
    exact congrArg (fun r => (root.join r).components) heq
  · exact .nil

theorem pairwise_idxOf {l : List Path} {f : Path → Path} (h : (l.map f).Nodup) :
    l.Pairwise fun p q => (l.map f).idxOf (f p) < (l.map f).idxOf (f q) := by
  have hrising : (l.map f).Pairwise fun p q => (l.map f).idxOf p < (l.map f).idxOf q := by
    rw [List.pairwise_iff_getElem]
    intro i j hi hj hij
    rwa [h.idxOf_getElem i hi, h.idxOf_getElem j hj]
  rwa [List.pairwise_map] at hrising

/-- Sites in files of the list, by rising position of the file and, in one file, by rising lines. -/
structure InOrder (files : List Path) (sites : List (Path × Nat)) : Prop where
  listed : ∀ x ∈ sites, x.1 ∈ files
  rising : sites.Pairwise fun x y => files.idxOf x.1 < files.idxOf y.1 ∨ x.1 = y.1 ∧ x.2 < y.2

theorem InOrder.sublist {files : List Path} {a b : List (Path × Nat)} (h : InOrder files b) (hab : a.Sublist b) :
    InOrder files a :=
  ⟨fun x hx => h.listed x (hab.subset hx), h.rising.sublist hab⟩

theorem scanFile_items {α : Type} (t : FileTree) (root : Path) (read : FileReader α) (path : Path) :
    (scanFile t root read path).items = [] ∨
      ∃ text, t.readText path = .ok text ∧
        (scanFile t root read path).items = (read (path.relativeTo root) text.toList).1 := by
  simp only [scanFile]
  split
  · next text htext => exact Or.inr ⟨text, htext, rfl⟩
  · exact Or.inl rfl

theorem exists_file_of_mem_scan {α : Type} {t : FileTree} {target : Target} {read : FileReader α} {x : α}
    (h : x ∈ (scan t target read).items) : t.isDirectory target.directory = true ∧
      ∃ path ∈ (t.walk target.directory target.extensions).files, ∃ text, t.readText path = .ok text ∧
        x ∈ (read (path.relativeTo target.root) text.toList).1 := by
  by_cases hd : t.isDirectory target.directory = true
  · rw [scan_of_directory read hd] at h
    obtain ⟨file, hfile, hx⟩ := List.mem_flatMap.1 h
    obtain ⟨path, hpath, rfl⟩ := List.mem_map.1 hfile
    rcases scanFile_items t target.root read path with hnone | ⟨text, htext, hitems⟩
    · simp [hnone] at hx
    · exact ⟨hd, path, hpath, text, htext, hitems ▸ hx⟩
  · simp [scan, hd] at h

theorem mem_scan_items {α : Type} {t : FileTree} {target : Target} {read : FileReader α} {x : α}
    (h : x ∈ (scan t target read).items) : ∃ path ∈ discovered t target, ∃ content, x ∈ (read path content).1 := by
  obtain ⟨hd, path, hpath, text, -, hx⟩ := exists_file_of_mem_scan h
  rw [discovered, if_pos hd]
  exact ⟨_, List.mem_map_of_mem hpath, text.toList, hx⟩

theorem scanFile_followsLines {α : Type} (t : FileTree) (root : Path) {read : FileReader α} {site : α → Path × Nat}
    (hread : ∀ path content, FollowsLines site path (read path content).1) (path : Path) :
    FollowsLines site (path.relativeTo root) (scanFile t root read path).items := by
  rcases scanFile_items t root read path with hnone | ⟨text, -, hitems⟩
  · rw [hnone]
    exact ⟨by simp, .nil⟩
  · rw [hitems]
    exact hread _ text.toList

theorem scan_inOrder {α : Type} {t : FileTree} {target : Target} {read : FileReader α} {site : α → Path × Nat}
    (hnodup : (discovered t target).Nodup) (hread : ∀ path content, FollowsLines site path (read path content).1) :
    InOrder (discovered t target) ((scan t target read).items.map site) where
  listed := by
    intro x hx
    obtain ⟨a, ha, rfl⟩ := List.mem_map.1 hx
    obtain ⟨path, hpath, content, ha⟩ := mem_scan_items ha
    rwa [(hread path content).here a ha]
  rising := by
    cases hd : t.isDirectory target.directory with
    | false => simp [scan, hd]
    | true =>
      have hfile := scanFile_followsLines t target.root hread
      rw [discovered, if_pos hd] at hnodup ⊢
      rw [scan_of_directory read hd, List.pairwise_map]
      simp only [StageScan.collect, List.flatMap_map]
      refine List.pairwise_flatMap.2 ⟨fun path _ => ?_, ?_⟩
      · refine (hfile path).rising.imp_of_mem fun ha hb hlt => Or.inr ⟨?_, hlt⟩
        rw [(hfile path).here _ ha, (hfile path).here _ hb]
      · refine (pairwise_idxOf hnodup).imp fun {p q} hlt a ha b hb => Or.inl ?_
        rwa [(hfile p).here a ha, (hfile q).here b hb]

end Granularity
