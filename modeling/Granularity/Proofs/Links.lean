import Granularity.Proofs.Coverage

/-!
Following links. How a path is spelled does not matter to where it leads, only its components do, as long as no slash
stands at its end. What is behind the path of a directory is looked up from that directory, and a lookup depends on
nothing but the places that it asks for.
-/

namespace Granularity

namespace FileTree

open Text

variable {t : FileTree} {followLast : Bool} {links : Nat} {dir : Place} {s : List Char} {rest : List (List Char)}

theorem locateFrom_skip (hs : s = [] ∨ s = ['.']) :
    t.locateFrom followLast links dir (s :: rest) = t.locateFrom followLast links dir rest := by
  rw [locateFrom, if_pos hs]

theorem locateFrom_up :
    t.locateFrom followLast links dir (['.', '.'] :: rest) = t.locateFrom followLast links dir.dropLast rest := by
  rw [locateFrom, if_neg (by simp), if_pos rfl]

section Name

variable (hs : ¬ (s = [] ∨ s = ['.'])) (hup : s ≠ ['.', '.'])

include hs hup

theorem locateFrom_missing (he : t.entryAt? (dir ++ [String.ofList s]) = none) :
    t.locateFrom followLast links dir (s :: rest) = .error .missing := by
  rw [locateFrom, if_neg hs, if_neg hup]
  simp only [he]

theorem locateFrom_directory (he : t.entryAt? (dir ++ [String.ofList s]) = some .directory) :
    t.locateFrom followLast links dir (s :: rest) =
      t.locateFrom followLast links (dir ++ [String.ofList s]) rest := by
  rw [locateFrom, if_neg hs, if_neg hup]
  simp only [he]

theorem locateFrom_file {bytes : ByteArray} (he : t.entryAt? (dir ++ [String.ofList s]) = some (.file bytes)) :
    t.locateFrom followLast links dir (s :: rest) =
      if rest.isEmpty then .ok (dir ++ [String.ofList s]) else .error .notDirectory := by
  rw [locateFrom, if_neg hs, if_neg hup]
  simp only [he]

variable {target : Path} (he : t.entryAt? (dir ++ [String.ofList s]) = some (.link target))

include he

theorem locateFrom_kept (hlast : (rest.isEmpty && !followLast) = true) :
    t.locateFrom followLast links dir (s :: rest) = .ok (dir ++ [String.ofList s]) := by
  rw [locateFrom, if_neg hs, if_neg hup]
  simp only [he, hlast, if_true]

theorem locateFrom_spent (hlast : ¬ (rest.isEmpty && !followLast) = true) :
    t.locateFrom followLast 0 dir (s :: rest) = .error .tooManyLinks := by
  rw [locateFrom, if_neg hs, if_neg hup]
  simp only [he, hlast]
  rfl

theorem locateFrom_followed (hlast : ¬ (rest.isEmpty && !followLast) = true) :
    t.locateFrom followLast (links + 1) dir (s :: rest) =
      t.locateFrom followLast links (start target dir) (target.segments ++ rest) := by
  rw [locateFrom, if_neg hs, if_neg hup]
  simp only [he, hlast]
  rfl

end Name

/-- What a lookup can meet, one case for each step it can take. -/
@[elab_as_elim]
theorem locateFrom_cases (t : FileTree) (followLast : Bool) {motive : Nat → Place → List (List Char) → Prop}
    (nil : ∀ links dir, motive links dir [])
    (skip : ∀ links dir s rest, (s = [] ∨ s = ['.']) → motive links dir rest → motive links dir (s :: rest))
    (up : ∀ links dir rest, motive links dir.dropLast rest → motive links dir (['.', '.'] :: rest))
    (missing : ∀ links dir s rest, ¬ (s = [] ∨ s = ['.']) → s ≠ ['.', '.'] →
      t.entryAt? (dir ++ [String.ofList s]) = none → motive links dir (s :: rest))
    (directory : ∀ links dir s rest, ¬ (s = [] ∨ s = ['.']) → s ≠ ['.', '.'] →
      t.entryAt? (dir ++ [String.ofList s]) = some .directory →
      motive links (dir ++ [String.ofList s]) rest → motive links dir (s :: rest))
    (file : ∀ links dir s rest bytes, ¬ (s = [] ∨ s = ['.']) → s ≠ ['.', '.'] →
      t.entryAt? (dir ++ [String.ofList s]) = some (.file bytes) → motive links dir (s :: rest))
    (kept : ∀ links dir s rest target, ¬ (s = [] ∨ s = ['.']) → s ≠ ['.', '.'] →
      t.entryAt? (dir ++ [String.ofList s]) = some (.link target) → (rest.isEmpty && !followLast) = true →
      motive links dir (s :: rest))
    (spent : ∀ dir s rest target, ¬ (s = [] ∨ s = ['.']) → s ≠ ['.', '.'] →
      t.entryAt? (dir ++ [String.ofList s]) = some (.link target) → ¬ (rest.isEmpty && !followLast) = true →
      motive 0 dir (s :: rest))
    (followed : ∀ links dir s rest target, ¬ (s = [] ∨ s = ['.']) → s ≠ ['.', '.'] →
      t.entryAt? (dir ++ [String.ofList s]) = some (.link target) → ¬ (rest.isEmpty && !followLast) = true →
      motive links (start target dir) (target.segments ++ rest) → motive (links + 1) dir (s :: rest))
    (links : Nat) (dir : Place) (segments : List (List Char)) : motive links dir segments := by
  induction links, dir, segments using locateFrom.induct t followLast
  case case1 => exact nil _ _
  case case2 hs ih => exact skip _ _ _ _ hs ih
  case case3 ih => exact up _ _ _ ih
  case case4 hs hup _ he => exact missing _ _ _ _ hs hup he
  case case5 hs hup _ he ih => exact directory _ _ _ _ hs hup he ih
  case case6 hs hup _ _ he _ => exact file _ _ _ _ _ hs hup he
  case case7 hs hup _ _ he _ => exact file _ _ _ _ _ hs hup he
  case case8 hs hup _ _ he hlast => exact kept _ _ _ _ _ hs hup he hlast
  case case9 hs hup _ _ he hlast => exact spent _ _ _ _ hs hup he hlast
  case case10 hs hup _ _ he hlast _ ih => exact followed _ _ _ _ _ hs hup he hlast ih

/-- The last segment, if there is one, is a component. -/
def Solid (segments : List (List Char)) : Prop :=
  ∀ s ∈ segments.getLast?, (Component.ofSegment? false s).isSome = true

theorem Solid.tail (h : Solid (s :: rest)) : Solid rest := by
  intro s' hs'
  apply h
  rw [List.getLast?_cons, Option.mem_def.1 hs']
  rfl

theorem Solid.append (h : Solid rest) (hne : rest ≠ []) (a : List (List Char)) : Solid (a ++ rest) := by
  intro s hs
  rw [List.getLast?_append_of_ne_nil _ hne] at hs
  exact h s hs

theorem Solid.of_append {a : List (List Char)} (h : Solid (a ++ rest)) : Solid rest := by
  induction a with
  | nil => exact h
  | cons s a ih => exact ih h.tail

theorem Solid.eq_nil_iff (h : Solid rest) : rest = [] ↔ Path.inner rest = [] := by
  constructor
  · rintro rfl
    rfl
  · intro hinner
    by_contra hne
    have hlast := h _ (List.getLast?_eq_some_getLast hne)
    have hnone := List.filterMap_eq_nil_iff.1 hinner _ (List.getLast_mem hne)
    rw [hnone] at hlast
    cases hlast

theorem Solid.isEmpty_congr {rest' : List (List Char)} (h : Solid rest) (h' : Solid rest')
    (hinner : Path.inner rest = Path.inner rest') : rest.isEmpty = rest'.isEmpty := by
  rw [Bool.eq_iff_iff, List.isEmpty_iff, List.isEmpty_iff, h.eq_nil_iff, h'.eq_nil_iff, hinner]

theorem solid_of_endsNamed {p : Path} (h : p.EndsNamed) : Solid p.segments := by
  obtain ⟨a, s, hs, hsome⟩ := h
  intro s' hs'
  rw [hs, List.getLast?_concat] at hs'
  cases hs'
  exact hsome

theorem locateFrom_skips {skip : List (List Char)} (h : ∀ s ∈ skip, Component.ofSegment? false s = none) :
    t.locateFrom followLast links dir (skip ++ rest) = t.locateFrom followLast links dir rest :=
  (Leads.of_skipped h).locateFrom_append followLast links rest

/-- Segments with the same components lead to the same place. -/
theorem locateFrom_congr {a b : List (List Char)} (ha : Solid a) (hb : Solid b) (h : Path.inner a = Path.inner b) :
    t.locateFrom followLast links dir a = t.locateFrom followLast links dir b := by
  -- where one goes to a name, so does the other, behind segments that do not count
  have hname {s : List Char} {rest b : List (List Char)} (hs : ¬ (s = [] ∨ s = ['.'])) (hup : s ≠ ['.', '.'])
      (h : Path.inner (s :: rest) = Path.inner b) : ∃ skip rest', b = skip ++ s :: rest' ∧
        (∀ s ∈ skip, Component.ofSegment? false s = none) ∧ Path.inner rest = Path.inner rest' := by
    rw [Path.inner, List.filterMap_cons_some (Component.ofSegment?_eq_name.2 ⟨hs, hup, rfl⟩)] at h
    obtain ⟨skip, s', rest', rfl, hskip, hs', hrest⟩ := List.filterMap_eq_cons_iff.1 h.symm
    obtain ⟨-, -, heq⟩ := Component.ofSegment?_eq_name.1 hs'
    exact ⟨skip, rest', by rw [String.ofList_inj.1 heq], hskip, hrest.symm⟩
  induction links, dir, a using locateFrom_cases t followLast generalizing b with
  | nil links dir =>
    rw [hb.eq_nil_iff.2 h.symm]
  | skip links dir s rest hs ih =>
    rw [locateFrom_skip hs]
    apply ih ha.tail hb
    rw [← h, Path.inner, Path.inner, List.filterMap_cons_none (Component.ofSegment?_eq_none.2 hs)]
  | up links dir rest ih =>
    rw [Path.inner, List.filterMap_cons_some (Component.ofSegment?_eq_up.2 rfl)] at h
    obtain ⟨skip, s', rest', rfl, hskip, hs', hrest⟩ := List.filterMap_eq_cons_iff.1 h.symm
    rw [Component.ofSegment?_eq_up.1 hs'] at hb ⊢
    rw [locateFrom_skips hskip, locateFrom_up, locateFrom_up]
    exact ih ha.tail hb.of_append.tail hrest.symm
  | missing links dir s rest hs hup he =>
    obtain ⟨skip, rest', rfl, hskip, hrest⟩ := hname hs hup h
    rw [locateFrom_skips hskip, locateFrom_missing hs hup he, locateFrom_missing hs hup he]
  | directory links dir s rest hs hup he ih =>
    obtain ⟨skip, rest', rfl, hskip, hrest⟩ := hname hs hup h
    rw [locateFrom_skips hskip, locateFrom_directory hs hup he, locateFrom_directory hs hup he]
    exact ih ha.tail hb.of_append.tail hrest
  | file links dir s rest bytes hs hup he =>
    obtain ⟨skip, rest', rfl, hskip, hrest⟩ := hname hs hup h
    rw [locateFrom_skips hskip, locateFrom_file hs hup he, locateFrom_file hs hup he,
      ha.tail.isEmpty_congr hb.of_append.tail hrest]
  | kept links dir s rest target hs hup he hlast =>
    obtain ⟨skip, rest', rfl, hskip, hrest⟩ := hname hs hup h
    have hlast' := hlast
    rw [ha.tail.isEmpty_congr hb.of_append.tail hrest] at hlast'
    rw [locateFrom_skips hskip, locateFrom_kept hs hup he hlast, locateFrom_kept hs hup he hlast']
  | spent dir s rest target hs hup he hlast =>
    obtain ⟨skip, rest', rfl, hskip, hrest⟩ := hname hs hup h
    have hlast' := hlast
    rw [ha.tail.isEmpty_congr hb.of_append.tail hrest] at hlast'
    rw [locateFrom_skips hskip, locateFrom_spent hs hup he hlast, locateFrom_spent hs hup he hlast']
  | followed links dir s rest target hs hup he hlast ih =>
    obtain ⟨skip, rest', rfl, hskip, hrest⟩ := hname hs hup h
    have hb := hb.of_append.tail
    have hlast' := hlast
    rw [ha.tail.isEmpty_congr hb hrest] at hlast'
    rw [locateFrom_skips hskip, locateFrom_followed hs hup he hlast, locateFrom_followed hs hup he hlast']
    by_cases hnil : rest = []
    · rw [hnil, hb.eq_nil_iff.2 (by rw [← hrest, hnil]; rfl)]
    · have hnil' : rest' ≠ [] := by
        rwa [Ne, hb.eq_nil_iff, ← hrest, ← ha.tail.eq_nil_iff]
      apply ih (ha.tail.append hnil _) (hb.append hnil' _)
      simp only [Path.inner, List.filterMap_append] at hrest ⊢
      rw [hrest]

/-- The segments lead from the directory to the place, through so many links at most. -/
inductive Resolves (t : FileTree) : Nat → Place → List (List Char) → Place → Prop where
  | done (links : Nat) (dir : Place) : Resolves t links dir [] dir
  | skip {links : Nat} {dir place : Place} {s : List Char} {rest : List (List Char)} (hs : s = [] ∨ s = ['.']) :
      Resolves t links dir rest place → Resolves t links dir (s :: rest) place
  | up {links : Nat} {dir place : Place} {rest : List (List Char)} :
      Resolves t links dir.dropLast rest place → Resolves t links dir (['.', '.'] :: rest) place
  | directory {links : Nat} {dir place : Place} {s : List Char} {rest : List (List Char)}
      (hs : ¬ (s = [] ∨ s = ['.'])) (hup : s ≠ ['.', '.'])
      (he : t.entryAt? (dir ++ [String.ofList s]) = some .directory) :
      Resolves t links (dir ++ [String.ofList s]) rest place → Resolves t links dir (s :: rest) place
  | file (links : Nat) {dir : Place} {s : List Char} {bytes : ByteArray} (hs : ¬ (s = [] ∨ s = ['.']))
      (hup : s ≠ ['.', '.']) (he : t.entryAt? (dir ++ [String.ofList s]) = some (.file bytes)) :
      Resolves t links dir [s] (dir ++ [String.ofList s])
  | link {links : Nat} {dir place : Place} {s : List Char} {rest : List (List Char)} {target : Path}
      (hs : ¬ (s = [] ∨ s = ['.'])) (hup : s ≠ ['.', '.'])
      (he : t.entryAt? (dir ++ [String.ofList s]) = some (.link target)) :
      Resolves t links (start target dir) (target.segments ++ rest) place → Resolves t (links + 1) dir (s :: rest) place

theorem resolves_of_locateFrom {a : List (List Char)} {place : Place}
    (h : t.locateFrom true links dir a = .ok place) : t.Resolves links dir a place := by
  induction links, dir, a using locateFrom_cases t true with
  | nil links dir =>
    rw [locateFrom] at h
    cases h
    exact .done links _
  | skip links dir s rest hs ih =>
    rw [locateFrom_skip hs] at h
    exact .skip hs (ih h)
  | up links dir rest ih =>
    rw [locateFrom_up] at h
    exact .up (ih h)
  | missing links dir s rest hs hup he =>
    rw [locateFrom_missing hs hup he] at h
    cases h
  | directory links dir s rest hs hup he ih =>
    rw [locateFrom_directory hs hup he] at h
    exact .directory hs hup he (ih h)
  | file links dir s rest bytes hs hup he =>
    rw [locateFrom_file hs hup he] at h
    split at h
    · next hrest =>
      cases h
      rw [List.isEmpty_iff.1 hrest]
      exact .file links hs hup he
    · cases h
  | kept links dir s rest target hs hup he hlast => simp at hlast
  | spent dir s rest target hs hup he hlast =>
    rw [locateFrom_spent hs hup he hlast] at h
    cases h
  | followed links dir s rest target hs hup he hlast ih =>
    rw [locateFrom_followed hs hup he hlast] at h
    exact .link hs hup he (ih h)

namespace Resolves

variable {a : List (List Char)} {place : Place}

theorem locateFrom_append (h : t.Resolves links dir a place) (hd : t.entryAt? place = some .directory) :
    ∃ links', ∀ followLast b, b ≠ [] →
      t.locateFrom followLast links dir (a ++ b) = t.locateFrom followLast links' place b := by
  induction h with
  | done links dir => exact ⟨links, fun _ _ _ => rfl⟩
  | skip hs _ ih =>
    obtain ⟨links', ih⟩ := ih hd
    exact ⟨links', fun f b hb => by rw [List.cons_append, locateFrom_skip hs, ih f b hb]⟩
  | up _ ih =>
    obtain ⟨links', ih⟩ := ih hd
    exact ⟨links', fun f b hb => by rw [List.cons_append, locateFrom_up, ih f b hb]⟩
  | directory hs hup he _ ih =>
    obtain ⟨links', ih⟩ := ih hd
    exact ⟨links', fun f b hb => by rw [List.cons_append, locateFrom_directory hs hup he, ih f b hb]⟩
  | file links hs hup he =>
    rw [he] at hd
    cases hd
  | @link links dir place s rest target hs hup he _ ih =>
    obtain ⟨links', ih⟩ := ih hd
    refine ⟨links', fun f b hb => ?_⟩
    have hlast : ¬ ((rest ++ b).isEmpty && !f) = true := by simp [hb]
    rw [List.cons_append, locateFrom_followed hs hup he hlast, ← List.append_assoc, ih f b hb]

theorem exists_kept (h : t.Resolves links dir a place) : ∃ place', t.locateFrom false links dir a = .ok place' := by
  induction h with
  | done links dir => exact ⟨dir, by rw [locateFrom]⟩
  | skip hs _ ih =>
    rw [locateFrom_skip hs]
    exact ih
  | up _ ih =>
    rw [locateFrom_up]
    exact ih
  | directory hs hup he _ ih =>
    rw [locateFrom_directory hs hup he]
    exact ih
  | file links hs hup he => exact ⟨_, locateFrom_file hs hup he⟩
  | @link links dir place s rest target hs hup he _ ih =>
    by_cases hnil : rest = []
    · exact ⟨_, locateFrom_kept hs hup he (by simp [hnil])⟩
    · rw [locateFrom_followed hs hup he (by simpa using hnil)]
      exact ih

end Resolves

theorem locate_eq_ok {path : Path} {place : Place} : t.locate followLast path = .ok place ↔
    pathFault? path = none ∧
      t.locateFrom followLast maxLinks (start path t.workingDirectory) path.segments = .ok place := by
  rw [locate]
  split <;> simp_all

theorem locate?_eq_some {path : Path} {place : Place} :
    t.locate? path = some place ↔ t.locate true path = .ok place := by
  rw [locate?]
  cases t.locate true path <;> simp [Except.toOption]

theorem ne_empty_of_locate {path : Path} {place : Place} (h : t.locate followLast path = .ok place) :
    path.text ≠ "" :=
  (pathFault?_eq_none.1 (locate_eq_ok.1 h).1).1

theorem exists_locate_kept {path : Path} {place : Place} (h : t.locate true path = .ok place) :
    ∃ place', t.locate false path = .ok place' := by
  obtain ⟨hfault, h⟩ := locate_eq_ok.1 h
  obtain ⟨place', h'⟩ := (resolves_of_locateFrom h).exists_kept
  exact ⟨place', locate_eq_ok.2 ⟨hfault, h'⟩⟩

theorem walkFrom_directory {path : Path} {dir : Place} (h : t.locate true path = .ok dir)
    (hd : t.entryAt? dir = some .directory) : t.walkFrom path = t.visits [⟨dir, path⟩] path dir := by
  obtain ⟨place, hkept⟩ := exists_locate_kept h
  simp [walkFrom, hkept, h, isDirectoryAt, hd]

theorem pathFault?_solid {p q : Path} (hp : p.EndsNamed) (hq : q.EndsNamed) (h : p.components = q.components) :
    pathFault? p = pathFault? q := by
  have hne {r : Path} (hr : r.EndsNamed) : r.text.isEmpty = false := by
    obtain ⟨a, s, hs, hsome⟩ := hr
    rw [String.isEmpty_eq_false_iff]
    rintro htext
    have hnil : a ++ [s] = [[]] := by
      rw [← hs, Path.segments, htext]
      rfl
    obtain ⟨-, rfl⟩ : a = [] ∧ s = [] := by simpa [List.append_eq_singleton_iff] using hnil
    cases hsome
  have hnul : p.text.toList.contains '\x00' = q.text.toList.contains '\x00' := by
    rw [Bool.eq_iff_iff, List.contains_iff_mem, List.contains_iff_mem, Path.mem_text_iff (by decide) (by decide),
      Path.mem_text_iff (by decide) (by decide), Path.inner_segments, Path.inner_segments, h]
  rw [pathFault?, pathFault?, hne hp, hne hq, hnul]

theorem locate_congr {p q : Path} (hp : p.EndsNamed) (hq : q.EndsNamed) (h : p.components = q.components) :
    t.locate followLast p = t.locate followLast q := by
  have hinner : Path.inner p.segments = Path.inner q.segments := by
    rw [Path.inner_segments, Path.inner_segments, h]
  have hstart : start p t.workingDirectory = start q t.workingDirectory := by
    rw [start, start, Path.isAbsolute_eq_contains, Path.isAbsolute_eq_contains, h]
  rw [locate, locate, pathFault?_solid hp hq h, hstart,
    locateFrom_congr (solid_of_endsNamed hp) (solid_of_endsNamed hq) hinner]

theorem readText_congr {p q : Path} (hp : p.EndsNamed) (hq : q.EndsNamed) (h : p.components = q.components) :
    t.readText p = t.readText q := by
  rw [readText, readText, locate_congr hp hq h]

theorem locate_join {path : Path} {mid : Place} {name : String} (h : t.locate true path = .ok mid)
    (hd : t.entryAt? mid = some .directory) (hn : IsName name) :
    ∃ links, ∀ followLast,
      t.locate followLast (path.join ⟨name⟩) = t.locateFrom followLast links mid [name.toList] := by
  obtain ⟨hfault, h⟩ := locate_eq_ok.1 h
  obtain ⟨links, hbehind⟩ := (resolves_of_locateFrom h).locateFrom_append hd
  refine ⟨links, fun followLast => ?_⟩
  have hne := (pathFault?_eq_none.1 hfault).1
  rw [locate, pathFault?_join hfault hn.isAbsolute_eq hn.no_nul, start_join hne hn.isAbsolute_eq,
    ← hbehind followLast _ (by simp)]
  have hsolid : Solid [name.toList] := by
    intro s hs
    obtain rfl : name.toList = s := by simpa using hs
    rw [hn.component_eq]
    rfl
  obtain ⟨a, hjoin, ha⟩ := Path.segments_join hne hn.isAbsolute_eq
  rw [hn.segments_eq] at hjoin
  apply locateFrom_congr
  · rw [hjoin]
    exact hsolid.append (by simp) a
  · exact hsolid.append (by simp) _
  · rcases ha with ha | ha
    · rw [hjoin, ha]
    · simp [hjoin, ha, Path.inner, Component.ofSegment?]

theorem locate_join_kept {path : Path} {mid : Place} {name : String} {e : Entry} (h : t.locate true path = .ok mid)
    (hd : t.entryAt? mid = some .directory) (hn : IsName name) (he : t.entryAt? (mid ++ [name]) = some e) :
    t.locate false (path.join ⟨name⟩) = .ok (mid ++ [name]) := by
  obtain ⟨links, hjoin⟩ := locate_join h hd hn
  have hname : String.ofList name.toList = name := String.ofList_toList
  rw [hjoin]
  rw [← hname] at he
  cases e with
  | directory => rw [locateFrom_directory hn.not_stay hn.ne_up he, hname, locateFrom]
  | file bytes => rw [locateFrom_file hn.not_stay hn.ne_up he, hname]; rfl
  | link target => rw [locateFrom_kept hn.not_stay hn.ne_up he rfl, hname]

theorem locate_join_directory {path : Path} {mid : Place} {name : String} (h : t.locate true path = .ok mid)
    (hd : t.entryAt? mid = some .directory) (hn : IsName name) (he : t.entryAt? (mid ++ [name]) = some .directory) :
    t.locate true (path.join ⟨name⟩) = .ok (mid ++ [name]) := by
  obtain ⟨links, hjoin⟩ := locate_join h hd hn
  have hname : String.ofList name.toList = name := String.ofList_toList
  rw [← hname] at he
  rw [hjoin, locateFrom_directory hn.not_stay hn.ne_up he, hname, locateFrom]

/-- Following the segments to their end asks what lies at the place. -/
inductive Consults (t : FileTree) : Nat → Place → List (List Char) → Place → Prop where
  | last (links : Nat) (dir : Place) : Consults t links dir [] dir
  | skip {links : Nat} {dir place : Place} {s : List Char} {rest : List (List Char)} (hs : s = [] ∨ s = ['.']) :
      Consults t links dir rest place → Consults t links dir (s :: rest) place
  | up {links : Nat} {dir place : Place} {rest : List (List Char)} :
      Consults t links dir.dropLast rest place → Consults t links dir (['.', '.'] :: rest) place
  | here (links : Nat) (dir : Place) {s : List Char} (rest : List (List Char)) (hs : ¬ (s = [] ∨ s = ['.']))
      (hup : s ≠ ['.', '.']) : Consults t links dir (s :: rest) (dir ++ [String.ofList s])
  | down {links : Nat} {dir place : Place} {s : List Char} {rest : List (List Char)} (hs : ¬ (s = [] ∨ s = ['.']))
      (hup : s ≠ ['.', '.']) (he : t.entryAt? (dir ++ [String.ofList s]) = some .directory) :
      Consults t links (dir ++ [String.ofList s]) rest place → Consults t links dir (s :: rest) place
  | through {links : Nat} {dir place : Place} {s : List Char} {rest : List (List Char)} {target : Path}
      (hs : ¬ (s = [] ∨ s = ['.'])) (hup : s ≠ ['.', '.'])
      (he : t.entryAt? (dir ++ [String.ofList s]) = some (.link target)) :
      Consults t links (start target dir) (target.segments ++ rest) place → Consults t (links + 1) dir (s :: rest) place

/-- A lookup depends on nothing but what it asks for. -/
theorem locateFrom_agree {t' : FileTree} {a : List (List Char)}
    (h : ∀ place, t.Consults links dir a place → t'.entryAt? place = t.entryAt? place) :
    t'.locateFrom true links dir a = t.locateFrom true links dir a := by
  induction links, dir, a using locateFrom_cases t true with
  | nil links dir => rw [locateFrom, locateFrom]
  | skip links dir s rest hs ih =>
    rw [locateFrom_skip hs, locateFrom_skip hs, ih fun place hc => h place (.skip hs hc)]
  | up links dir rest ih =>
    rw [locateFrom_up, locateFrom_up, ih fun place hc => h place (.up hc)]
  | missing links dir s rest hs hup he =>
    have he' := (h _ (.here links dir rest hs hup)).trans he
    rw [locateFrom_missing hs hup he, locateFrom_missing hs hup he']
  | directory links dir s rest hs hup he ih =>
    have he' := (h _ (.here links dir rest hs hup)).trans he
    rw [locateFrom_directory hs hup he, locateFrom_directory hs hup he',
      ih fun place hc => h place (.down hs hup he hc)]
  | file links dir s rest bytes hs hup he =>
    have he' := (h _ (.here links dir rest hs hup)).trans he
    rw [locateFrom_file hs hup he, locateFrom_file hs hup he']
  | kept links dir s rest target hs hup he hlast => simp at hlast
  | spent dir s rest target hs hup he hlast =>
    have he' := (h _ (.here 0 dir rest hs hup)).trans he
    rw [locateFrom_spent hs hup he hlast, locateFrom_spent hs hup he' hlast]
  | followed links dir s rest target hs hup he hlast ih =>
    have he' := (h _ (.here (links + 1) dir rest hs hup)).trans he
    rw [locateFrom_followed hs hup he hlast, locateFrom_followed hs hup he' hlast,
      ih fun place hc => h place (.through hs hup he hc)]

theorem Resolves.consults {a : List (List Char)} {place : Place} (h : t.Resolves links dir a place) :
    t.Consults links dir a place := by
  induction h with
  | done links dir => exact .last links dir
  | skip hs _ ih => exact .skip hs ih
  | up _ ih => exact .up ih
  | directory hs hup he _ ih => exact .down hs hup he ih
  | file links hs hup he => exact .here links _ [] hs hup
  | link hs hup he _ ih => exact .through hs hup he ih

/-- Finding what the path leads to asks what lies at the place. -/
def LooksAt (t : FileTree) (path : Path) (place : Place) : Prop :=
  t.Consults maxLinks (start path t.workingDirectory) path.segments place

theorem looksAt_of_locate {path : Path} {place : Place} (h : t.locate true path = .ok place) : t.LooksAt path place :=
  (resolves_of_locateFrom (locate_eq_ok.1 h).2).consults

theorem locate_agree {t' : FileTree} {path : Path} (hd : t'.workingDirectory = t.workingDirectory)
    (h : ∀ place, t.LooksAt path place → t'.entryAt? place = t.entryAt? place) :
    t'.locate true path = t.locate true path := by
  rw [locate, locate, hd, locateFrom_agree h]

theorem readText_agree {t' : FileTree} {path : Path} (hd : t'.workingDirectory = t.workingDirectory)
    (h : ∀ place, t.LooksAt path place → t'.entryAt? place = t.entryAt? place) :
    t'.readText path = t.readText path := by
  simp only [readText, locate_agree hd h]
  cases hlocate : t.locate true path with
  | error fault => rfl
  | ok place => simp only [h place (looksAt_of_locate hlocate)]

theorem Consults.of_skip {place : Place} (hs : s = [] ∨ s = ['.']) (h : t.Consults links dir (s :: rest) place) :
    t.Consults links dir rest place := by
  cases h with
  | skip _ h => exact h
  | up => simp at hs
  | here _ _ _ hs' => exact absurd hs hs'
  | down hs' => exact absurd hs hs'
  | through hs' => exact absurd hs hs'

/-- A path of names with no link on it asks for the places on the way and no other. -/
theorem Consults.of_names {names : List String} {place : Place} (hn : ∀ name ∈ names, IsName name)
    (hl : ∀ p, p <+: names → ∀ target, t.entryAt? (dir ++ p) ≠ some (.link target))
    (h : t.Consults links dir (names.map String.toList) place) : ∃ p, p <+: names ∧ place = dir ++ p := by
  induction names generalizing dir with
  | nil =>
    cases h
    exact ⟨[], List.nil_prefix, (List.append_nil _).symm⟩
  | cons name names ih =>
    have hname := hn name List.mem_cons_self
    have hofList : String.ofList name.toList = name := String.ofList_toList
    rw [List.map_cons] at h
    generalize hs : name.toList = s at h
    cases h with
    | skip hstay => exact absurd (hs ▸ hstay) hname.not_stay
    | up => exact absurd hs hname.ne_up
    | here => exact ⟨[name], by simp, by rw [← hs, hofList]⟩
    | down hstay hup he h =>
      rw [← hs, hofList] at h
      obtain ⟨p, hp, rfl⟩ := ih (fun n hmem => hn n (List.mem_cons_of_mem _ hmem))
        (fun p hp target => by simpa using hl (name :: p) (List.cons_prefix_cons.2 ⟨rfl, hp⟩) target) h
      exact ⟨name :: p, List.cons_prefix_cons.2 ⟨rfl, hp⟩, by simp⟩
    | through hstay hup he h =>
      rw [← hs, hofList] at he
      exact absurd he (hl [name] (by simp) _)

theorem Rooted.dropLast (hr : t.Rooted) (h : t.entryAt? dir = some .directory) :
    t.entryAt? dir.dropLast = some .directory := by
  by_cases hne : dir = []
  · subst hne
    exact h
  · exact hr _ (mem_entries_of_some hne h)

theorem entryAt?_start (hd : t.entryAt? dir = some .directory) (path : Path) :
    t.entryAt? (start path dir) = some .directory := by
  rw [start]
  split
  · rfl
  · exact hd

theorem Resolves.entryAt?_cases (hr : t.Rooted) {a : List (List Char)} {place : Place}
    (h : t.Resolves links dir a place) (hd : t.entryAt? dir = some .directory) :
    t.entryAt? place = some .directory ∨ ∃ bytes, t.entryAt? place = some (.file bytes) := by
  induction h with
  | done links dir => exact Or.inl hd
  | skip hs _ ih => exact ih hd
  | up _ ih => exact ih (hr.dropLast hd)
  | directory hs hup he _ ih => exact ih he
  | file links hs hup he => exact Or.inr ⟨_, he⟩
  | link hs hup he _ ih => exact ih (entryAt?_start hd _)

end FileTree

end Granularity
