import Granularity.Proofs.Paths

namespace Granularity.Path

open Text

theorem isAbsolute_iff_segments {p : Path} : p.isAbsolute = true ↔ ∃ s rest, p.segments = [] :: s :: rest := by
  constructor
  · intro h
    obtain ⟨cs, htext⟩ : ∃ cs, p.text.toList = '/' :: cs := by
      simpa [isAbsolute, List.head?_eq_some_iff] using h
    obtain ⟨s, rest, hs⟩ := List.exists_cons_of_ne_nil (splitAt_ne_nil '/' cs)
    exact ⟨s, rest, by simp [segments, htext, splitAt, hs]⟩
  · rintro ⟨s, rest, hs⟩
    have htext := joinWith_splitAt '/' p.text.toList
    rw [← segments, hs] at htext
    simp [isAbsolute, ← htext, joinWith]

theorem marksFrom_append (f : Nat → List Char → Option Component) (n : Nat) (a b : List (List Char)) :
    marksFrom f n (a ++ b) = marksFrom f n a ++ marksFrom f (n + a.length) b := by
  rw [marksFrom, List.zipIdx_append, List.filterMap_append]
  rfl

theorem marksFrom_take {f : Nat → List Char → Option Component} {n k j : Nat} {segments : List (List Char)}
    {c : Component} (h : (marksFrom f n segments)[k]? = some (c, j)) :
    ∃ d s, j = n + d ∧ segments[d]? = some s ∧ f j s = some c ∧
      marksFrom f n (segments.take (d + 1)) = (marksFrom f n segments).take (k + 1) := by
  obtain ⟨hk, hat⟩ := List.getElem?_eq_some_iff.1 h
  obtain ⟨d, rfl, -, htake, s, rest, hs, hc⟩ := marksFrom_drop ((List.drop_eq_getElem_cons hk).trans (by rw [hat]))
  have hsome : segments[d]? = some s := by rw [← List.head?_drop, hs]; rfl
  obtain ⟨hd, -⟩ := List.getElem?_eq_some_iff.1 hsome
  refine ⟨d, s, rfl, hsome, hc, ?_⟩
  rw [List.take_add_one, List.take_add_one, hsome, h, marksFrom_append, htake, List.length_take,
    Nat.min_eq_left (Nat.le_of_lt hd), Option.toList_some, marksFrom_cons, hc]
  rfl

theorem segments_slice (p : Path) (j : Nat) : (p.slice 0 j).segments = p.segments.take (j + 1) := by
  have hne : p.segments ≠ [] := splitAt_ne_nil '/' p.text.toList
  rw [slice_segments (by simpa using hne), List.drop_zero]

theorem isAbsolute_slice {p : Path} {j : Nat} (hj : p.isAbsolute = true → 0 < j) :
    (p.slice 0 j).isAbsolute = p.isAbsolute := by
  rw [Bool.eq_iff_iff]
  constructor
  · intro h
    obtain ⟨s, rest, hs⟩ := isAbsolute_iff_segments.1 h
    rw [segments_slice] at hs
    refine isAbsolute_iff_segments.2 ⟨s, rest ++ p.segments.drop (j + 1), ?_⟩
    calc p.segments = p.segments.take (j + 1) ++ p.segments.drop (j + 1) := (List.take_append_drop _ _).symm
      _ = [] :: s :: (rest ++ p.segments.drop (j + 1)) := by rw [hs]; rfl
  · intro h
    obtain ⟨s, rest, hs⟩ := isAbsolute_iff_segments.1 h
    obtain ⟨i, rfl⟩ : ∃ i, j = i + 1 := ⟨j - 1, by have := hj h; omega⟩
    exact isAbsolute_iff_segments.2 ⟨s, rest.take i, by rw [segments_slice, hs]; rfl⟩

theorem marks_slice {p : Path} {k j : Nat} {c : Component} (hj : p.isAbsolute = true → 0 < j)
    (h : (marksFrom p.componentAt 0 p.segments)[k]? = some (c, j)) :
    (p.slice 0 j).marks = p.rootMark ++ (marksFrom p.componentAt 0 p.segments).take (k + 1) := by
  obtain ⟨d, s, hd, -, -, htake⟩ := marksFrom_take h
  obtain rfl : j = d := by omega
  have habs := isAbsolute_slice hj
  have hroot : (p.slice 0 j).rootMark = p.rootMark := by rw [rootMark, rootMark, habs]
  have hat : (p.slice 0 j).componentAt = p.componentAt := by
    funext n
    rw [componentAt, componentAt, habs]
  rw [marks_eq, hroot, hat, segments_slice, htake]

theorem components_through {p : Path} {k j : Nat} {c : Component} (h : p.marks[k]? = some (c, j)) :
    (p.through j).components = p.components.take (k + 1) := by
  rw [components, components, ← List.map_take, marks_eq p]
  rw [marks_eq] at h
  cases habs : p.isAbsolute with
  | true =>
    have hroot : p.rootMark = [(.root, 0)] := if_pos habs
    rw [hroot] at h ⊢
    cases k with
    | zero =>
      obtain ⟨-, rfl⟩ : Component.root = c ∧ 0 = j := by simpa using h
      rw [through, if_pos (by simp [habs])]
      rfl
    | succ k =>
      have h : (marksFrom p.componentAt 0 p.segments)[k]? = some (c, j) := by simpa using h
      -- the segment in front of the first slash is empty
      have hj : 0 < j := by
        obtain ⟨d, s, hd, hs, hc, -⟩ := marksFrom_take h
        obtain ⟨s', rest, hsegments⟩ := isAbsolute_iff_segments.1 habs
        rw [hsegments] at hs
        rcases Nat.eq_zero_or_pos j with rfl | hj
        · obtain rfl : d = 0 := by omega
          cases hs
          simp [componentAt, Component.ofSegment?] at hc
        · exact hj
      rw [through, if_neg (by simp [Nat.ne_of_gt hj]), marks_slice (fun _ => hj) h, hroot]
      rfl
  | false =>
    have hroot : p.rootMark = [] := if_neg (by simp [habs])
    rw [hroot, List.nil_append] at h ⊢
    rw [through, if_neg (by simp [habs]), marks_slice (by simp [habs]) h, hroot]
    rfl

theorem eq_empty_or_text_ne (p : Path) : p = empty ∨ p.text ≠ "" :=
  (Classical.em (p.text = "")).imp_left (congrArg Path.mk)

theorem join_empty (q : Path) : empty.join q = q := by
  unfold join
  split
  · rfl
  · simp [empty]

theorem components_stripPrefix?_empty {p q : Path} (h : p.stripPrefix? empty = some q) :
    q.components = p.components := by
  have hnil : empty.components = [] := rfl
  rw [stripPrefix?, hnil, if_pos (by simp), List.length_nil, List.drop_zero] at h
  cases hmarks : p.marks with
  | nil =>
    rw [hmarks] at h
    cases h
    rw [hnil, components, hmarks, List.map_nil]
  | cons mark more =>
    obtain ⟨c, i⟩ := mark
    cases hlast : p.marks.getLast? with
    | none => simp [hmarks] at hlast
    | some last =>
      obtain ⟨c', j⟩ := last
      rw [hlast, hmarks] at h
      cases h
      rw [List.getLast?_eq_getElem?] at hlast
      rw [if_pos List.isEmpty_nil, components_through hlast, List.take_of_length_le (by simp [components, hmarks])]

theorem components_relativeTo_append {p root : Path} {behind : List Component}
    (h : p.components = root.components ++ behind) : (p.relativeTo root).components = behind := by
  obtain ⟨q, hq⟩ := stripPrefix?_isSome ⟨behind, h.symm⟩
  rw [relativeTo, hq, Option.getD_some]
  rcases eq_empty_or_text_ne root with rfl | hroot
  · rw [components_stripPrefix?_empty hq, h]
    rfl
  · obtain ⟨⟨-, hinner⟩, hcomponents, -⟩ := stripPrefix?_spec (components_ne_nil hroot) hq
    rw [hinner]
    exact List.append_cancel_left (hcomponents.symm.trans h)

theorem components_join_relativeTo_of_below {p root : Path} (h : root.components <+: p.components) :
    (root.join (p.relativeTo root)).components = p.components := by
  rcases eq_empty_or_text_ne root with rfl | hroot
  · rw [join_empty]
    exact components_relativeTo_append rfl
  · rcases join_relativeTo hroot (Or.inr h) with heq | ⟨heq, -⟩
    · rw [heq]
    · exact heq

theorem relativeTo_of_not_below {p root : Path} (h : ¬ root.components <+: p.components) : p.relativeTo root = p := by
  rw [relativeTo, stripPrefix?, if_neg (by rwa [List.isPrefixOf_iff_prefix]), Option.getD_none]

theorem components_relativeTo_join (root : Path) {q : Path} (hrel : q.isAbsolute = false)
    (hhere : q.components.head? ≠ some .here) : ((root.join q).relativeTo root).components = q.components := by
  apply components_relativeTo_append
  rcases eq_empty_or_text_ne root with rfl | hroot
  · rw [join_empty]
    rfl
  · rw [components_join hroot hrel]
    rcases components_eq q with ⟨-, habs⟩ | ⟨hq, -⟩ | ⟨hq, -⟩
    · simp [hrel] at habs
    · simp [hq] at hhere
    · rw [hq]

/-- A path below the root, as seen from there, names the same entry again when it is joined to the root; any other
path stays as it is; and what is joined to the root, unless it opens with a dot, comes back with its components. -/
theorem relativeTo_namesAgain (p root : Path) :
    (root.components <+: p.components → (root.join (p.relativeTo root)).components = p.components) ∧
      (¬ root.components <+: p.components → p.relativeTo root = p) ∧
      ∀ q : Path, q.isAbsolute = false → q.components.head? ≠ some .here →
        ((root.join q).relativeTo root).components = q.components :=
  ⟨components_join_relativeTo_of_below, relativeTo_of_not_below, fun _ => components_relativeTo_join root⟩

/-- The root is spelled with a dot and a trailing slash; of what is left, only the inner spelling stays. -/
theorem relativeTo_namesAgain_spelled :
    ((⟨"a/./"⟩ : Path).join ((⟨"a//.//b/../c/./"⟩ : Path).relativeTo ⟨"a/./"⟩)).components =
        (⟨"a//.//b/../c/./"⟩ : Path).components ∧
      (⟨"a//.//b/../c/./"⟩ : Path).relativeTo ⟨"a/./"⟩ = ⟨"b/../c"⟩ ∧
      (⟨"./a/b"⟩ : Path).relativeTo ⟨"a/./"⟩ = ⟨"./a/b"⟩ ∧
      (((⟨"a/./"⟩ : Path).join ⟨"..//b/."⟩).relativeTo ⟨"a/./"⟩).components = (⟨"..//b/."⟩ : Path).components :=
  ⟨(relativeTo_namesAgain ⟨"a//.//b/../c/./"⟩ ⟨"a/./"⟩).1 (List.isPrefixOf_iff_prefix.1 (by decide)), by decide,
    (relativeTo_namesAgain ⟨"./a/b"⟩ ⟨"a/./"⟩).2.1 (fun h => absurd (List.isPrefixOf_iff_prefix.2 h) (by decide)),
    (relativeTo_namesAgain ⟨""⟩ ⟨"a/./"⟩).2.2 ⟨"..//b/."⟩ (by decide) (by decide)⟩

end Granularity.Path
