import Granularity.Path
import Granularity.Proofs.Split

namespace Granularity

theorem Component.ofSegment?_cases (s : List Char) :
    (s = [] ∨ s = ['.']) ∧ ofSegment? false s = none ∨
      s = ['.', '.'] ∧ ofSegment? false s = some .up ∨
      (¬ (s = [] ∨ s = ['.']) ∧ s ≠ ['.', '.']) ∧ ofSegment? false s = some (.name (String.ofList s)) := by
  by_cases hstay : s = [] ∨ s = ['.']
  · refine Or.inl ⟨hstay, ?_⟩
    rcases hstay with rfl | rfl <;> rfl
  · by_cases hup : s = ['.', '.']
    · exact Or.inr (Or.inl ⟨hup, by rw [hup]; rfl⟩)
    · obtain ⟨hnil, hhere⟩ := not_or.1 hstay
      exact Or.inr (Or.inr ⟨⟨hstay, hup⟩, by simp [ofSegment?, hnil, hhere, hup]⟩)

theorem Component.ofSegment?_eq_none {s : List Char} : ofSegment? false s = none ↔ s = [] ∨ s = ['.'] := by
  rcases ofSegment?_cases s with ⟨hs, h⟩ | ⟨rfl, h⟩ | ⟨⟨hs, -⟩, h⟩ <;> simp_all

theorem Component.ofSegment?_eq_up {s : List Char} : ofSegment? false s = some .up ↔ s = ['.', '.'] := by
  rcases ofSegment?_cases s with ⟨rfl | rfl, h⟩ | ⟨rfl, h⟩ | ⟨⟨-, hs⟩, h⟩ <;> simp_all

theorem Component.ofSegment?_eq_name {s : List Char} {name : String} : ofSegment? false s = some (.name name) ↔
    ¬ (s = [] ∨ s = ['.']) ∧ s ≠ ['.', '.'] ∧ String.ofList s = name := by
  rcases ofSegment?_cases s with ⟨rfl | rfl, h⟩ | ⟨rfl, h⟩ | ⟨⟨hs, hup⟩, h⟩ <;> simp_all

theorem Component.ofSegment?_first (s : List Char) :
    ofSegment? true s = if s = ['.'] then some .here else ofSegment? false s := by
  by_cases h : s = ['.'] <;> simp [ofSegment?, h]

namespace Path

open Text

theorem join_text {p q : Path} (hp : p.text ≠ "") (hq : q.isAbsolute = false) :
    ∃ a, (p.join q).text.toList = a ++ '/' :: q.text.toList ∧
      (p.text.toList = a ∨ p.text.toList = a ++ ['/']) := by
  have hne : p.text.isEmpty = false := by simpa using hp
  simp only [join, hq, hne, Bool.false_or]
  by_cases hlast : p.text.toList.getLast? = some '/'
  · obtain ⟨a, ha⟩ := List.getLast?_eq_some_iff.1 hlast
    refine ⟨a, ?_, Or.inr ha⟩
    simp [ha]
  · refine ⟨p.text.toList, ?_, Or.inl rfl⟩
    simp [hlast]

theorem segments_join {p q : Path} (hp : p.text ≠ "") (hq : q.isAbsolute = false) :
    ∃ a, (p.join q).segments = a ++ q.segments ∧ (p.segments = a ∨ p.segments = a ++ [[]]) := by
  obtain ⟨a, hjoin, ha⟩ := join_text hp hq
  refine ⟨splitAt '/' a, ?_, ?_⟩
  · rw [segments, hjoin, splitAt_append]
    rfl
  · rcases ha with ha | ha
    · exact Or.inl (by rw [segments, ha])
    · exact Or.inr (by rw [segments, ha, splitAt_append]; rfl)

theorem isAbsolute_join {p q : Path} (hp : p.text ≠ "") (hq : q.isAbsolute = false) :
    (p.join q).isAbsolute = p.isAbsolute := by
  obtain ⟨a, hjoin, ha⟩ := join_text hp hq
  simp only [isAbsolute, hjoin]
  rcases ha with ha | ha
  · cases a with
    | nil => exact absurd (String.toList_eq_nil_iff.1 ha) hp
    | cons c a => simp [ha]
  · cases a with
    | nil => simp [ha]
    | cons c a => simp [ha]

/-- The components of segments that do not open a relative path. -/
def inner (segments : List (List Char)) : List Component := segments.filterMap (Component.ofSegment? false)

def marksFrom (f : Nat → List Char → Option Component) (n : Nat) (segments : List (List Char)) :
    List (Component × Nat) :=
  (segments.zipIdx n).filterMap fun s => (f s.2 s.1).map (·, s.2)

theorem marksFrom_cons (f : Nat → List Char → Option Component) (n : Nat) (s : List Char)
    (rest : List (List Char)) :
    marksFrom f n (s :: rest) = ((f n s).map (·, n)).toList ++ marksFrom f (n + 1) rest := by
  cases h : f n s <;> simp [marksFrom, h]

theorem marksFrom_fst {f : Nat → List Char → Option Component} {n : Nat} {segments : List (List Char)}
    (hf : ∀ m s, n ≤ m → f m s = Component.ofSegment? false s) :
    (marksFrom f n segments).map Prod.fst = inner segments := by
  induction segments generalizing n with
  | nil => rfl
  | cons s rest ih =>
    rw [marksFrom_cons, List.map_append, ih fun m s hm => hf m s (by omega), hf n s (Nat.le_refl n)]
    cases h : Component.ofSegment? false s <;> simp [inner, h]

def componentAt (p : Path) (n : Nat) : List Char → Option Component :=
  Component.ofSegment? (!p.isAbsolute && n == 0)

theorem componentAt_eq {p : Path} {n : Nat} (h : p.isAbsolute = true ∨ 0 < n) :
    p.componentAt n = Component.ofSegment? false := by
  have hfirst : (!p.isAbsolute && n == 0) = false := by
    rcases h with h | h
    · simp [h]
    · simp [Nat.ne_of_gt h]
  rw [componentAt, hfirst]

def rootMark (p : Path) : List (Component × Nat) := if p.isAbsolute then [(.root, 0)] else []

theorem marks_eq (p : Path) : p.marks = p.rootMark ++ marksFrom p.componentAt 0 p.segments := by
  cases h : p.isAbsolute <;> simp [marks, rootMark, marksFrom, componentAt, h]

theorem components_absolute {p : Path} (h : p.isAbsolute = true) : p.components = .root :: inner p.segments := by
  rw [components, marks_eq, List.map_append, marksFrom_fst fun m s _ => by rw [componentAt_eq (Or.inl h)], rootMark,
    if_pos h]
  rfl

theorem components_relative {p : Path} (h : p.isAbsolute = false) {s : List Char} {rest : List (List Char)}
    (hs : p.segments = s :: rest) :
    p.components = (Component.ofSegment? true s).toList ++ inner rest := by
  have htail : (marksFrom p.componentAt 1 rest).map Prod.fst = inner rest := by
    apply marksFrom_fst
    intro m s hm
    rw [componentAt_eq (Or.inr hm)]
  have hfirst : p.componentAt 0 s = Component.ofSegment? true s := by simp [componentAt, h]
  rw [components, marks_eq, hs, marksFrom_cons, List.map_append, List.map_append, htail, rootMark, if_neg (by simp [h]),
    hfirst]
  cases Component.ofSegment? true s <;> rfl

theorem inner_trailing (a : List (List Char)) : inner (a ++ [[]]) = inner a := by
  simp [inner, Component.ofSegment?]

theorem components_join {p q : Path} (hp : p.text ≠ "") (hq : q.isAbsolute = false) :
    (p.join q).components = p.components ++ inner q.segments := by
  obtain ⟨a, hjoin, ha⟩ := segments_join hp hq
  have hinner : inner p.segments = inner a := by
    rcases ha with ha | ha
    · rw [ha]
    · rw [ha, inner_trailing]
  cases habs : p.isAbsolute with
  | true =>
    rw [components_absolute habs, components_absolute (by rwa [isAbsolute_join hp hq]), hjoin, hinner]
    simp [inner]
  | false =>
    have hrel : (p.join q).isAbsolute = false := by rwa [isAbsolute_join hp hq]
    cases a with
    | nil =>
      rcases ha with ha | ha
      · exact absurd ha (splitAt_ne_nil _ _)
      · have htext := joinWith_splitAt '/' p.text.toList
        rw [← segments, ha] at htext
        exact absurd (String.toList_eq_nil_iff.1 htext.symm) hp
    | cons s a =>
      rw [List.cons_append] at hjoin
      rw [components_relative hrel hjoin]
      rcases ha with ha | ha
      · rw [components_relative habs ha]
        simp [inner]
      · rw [List.cons_append] at ha
        rw [components_relative habs ha, inner_trailing]
        simp [inner]

theorem marksFrom_drop {f : Nat → List Char → Option Component} {n k i : Nat} {segments : List (List Char)}
    {c : Component} {more : List (Component × Nat)} (h : (marksFrom f n segments).drop k = (c, i) :: more) :
    ∃ d, i = n + d ∧ marksFrom f i (segments.drop d) = (c, i) :: more ∧
      marksFrom f n (segments.take d) = (marksFrom f n segments).take k ∧
      ∃ s rest, segments.drop d = s :: rest ∧ f i s = some c := by
  induction segments generalizing n k with
  | nil => simp [marksFrom] at h
  | cons s rest ih =>
    rw [marksFrom_cons] at h ⊢
    cases hs : f n s with
    | none =>
      simp only [hs, Option.map_none, Option.toList_none, List.nil_append] at h ⊢
      obtain ⟨d, hi, hdrop, htake, hat⟩ := ih h
      refine ⟨d + 1, by omega, hdrop, ?_, hat⟩
      rw [List.take_succ_cons, marksFrom_cons, hs, htake]
      rfl
    | some c' =>
      simp only [hs, Option.map_some, Option.toList_some, List.singleton_append] at h ⊢
      cases k with
      | zero =>
        obtain ⟨⟨rfl, rfl⟩, hmore⟩ : (c' = c ∧ n = i) ∧ marksFrom f (n + 1) rest = more := by simpa using h
        refine ⟨0, rfl, ?_, rfl, s, rest, rfl, hs⟩
        rw [List.drop_zero, marksFrom_cons, hs, hmore]
        rfl
      | succ k =>
        obtain ⟨d, hi, hdrop, htake, hat⟩ := ih h
        refine ⟨d + 1, by omega, hdrop, ?_, hat⟩
        rw [List.take_succ_cons, marksFrom_cons, hs, htake]
        rfl

theorem marksFrom_getLast? {f : Nat → List Char → Option Component} {n j : Nat} {segments : List (List Char)}
    {c : Component} (h : (marksFrom f n segments).getLast? = some (c, j)) :
    ∃ e, j = n + e ∧ marksFrom f n (segments.take (e + 1)) = marksFrom f n segments ∧
      ∃ a s, segments.take (e + 1) = a ++ [s] ∧ f j s = some c := by
  induction segments generalizing n with
  | nil => simp [marksFrom] at h
  | cons s rest ih =>
    rw [marksFrom_cons] at h ⊢
    cases hrest : (marksFrom f (n + 1) rest).getLast? with
    | none =>
      have hnil : marksFrom f (n + 1) rest = [] := by simpa using hrest
      cases hs : f n s with
      | none => simp [hs, hnil] at h
      | some c' =>
        obtain ⟨rfl, rfl⟩ : c' = c ∧ n = j := by simpa [hs, hnil] using h
        refine ⟨0, rfl, ?_, [], s, rfl, hs⟩
        rw [List.take_succ_cons, List.take_zero, marksFrom_cons, hs, hnil]
        rfl
    | some last =>
      rw [List.getLast?_append, hrest] at h
      cases h
      obtain ⟨e, hj, hmarks, a, s', htake, hs'⟩ := ih hrest
      refine ⟨e + 1, by omega, ?_, s :: a, s', by rw [List.take_succ_cons, htake]; rfl, hs'⟩
      rw [List.take_succ_cons, marksFrom_cons, hmarks]

/-- The last segment is a component, so no slash stands at the end. -/
def EndsNamed (p : Path) : Prop := ∃ a s, p.segments = a ++ [s] ∧ (Component.ofSegment? false s).isSome = true

theorem slice_segments {p : Path} {i j : Nat} (hne : (p.segments.take (j + 1)).drop i ≠ []) :
    (p.slice i j).segments = (p.segments.take (j + 1)).drop i := by
  rw [segments, slice, String.toList_ofList]
  apply splitAt_joinWith hne
  intro part hpart
  exact not_mem_of_mem_splitAt (List.mem_of_mem_take (List.mem_of_mem_drop hpart))

theorem isAbsolute_of_segments {p : Path} {s : List Char} {rest : List (List Char)} (hs : s ≠ [])
    (h : p.segments = s :: rest) : p.isAbsolute = false := by
  have htext := joinWith_splitAt '/' p.text.toList
  have hslash : '/' ∉ s := by
    apply not_mem_of_mem_splitAt
    rw [← segments, h]
    exact List.mem_cons_self
  cases s with
  | nil => exact absurd rfl hs
  | cons c s =>
    have hhead : p.text.toList.head? = some c := by
      rw [← htext, ← segments, h]
      cases rest <;> rfl
    have hc : c ≠ '/' := fun hc => hslash (by simp [hc])
    simp [isAbsolute, hhead, hc]

theorem marks_drop {p : Path} {k i : Nat} {c : Component} {more : List (Component × Nat)} (hk : 0 < k)
    (h : p.marks.drop k = (c, i) :: more) :
    (p.isAbsolute = true ∨ 0 < i) ∧ marksFrom p.componentAt i (p.segments.drop i) = (c, i) :: more ∧
      ∃ s rest, p.segments.drop i = s :: rest ∧ p.componentAt i s = some c := by
  obtain ⟨k, rfl⟩ : ∃ k', k = k' + 1 := ⟨k - 1, by omega⟩
  rw [marks_eq, rootMark] at h
  split at h
  · next habs =>
    obtain ⟨d, hi, hdrop, -, hat⟩ := marksFrom_drop h
    obtain rfl : i = d := by omega
    exact ⟨Or.inl habs, hdrop, hat⟩
  · rw [List.nil_append] at h
    obtain ⟨d, hi, hdrop, htake, hat⟩ := marksFrom_drop h
    obtain rfl : i = d := by omega
    refine ⟨Or.inr (Nat.pos_of_ne_zero ?_), hdrop, hat⟩
    rintro rfl
    -- a mark in front of the first segment is none
    have hnil : marksFrom p.componentAt 0 p.segments = [] := by
      simpa [marksFrom] using htake.symm
    simp [hnil] at h

theorem components_of_segments {p : Path} {s : List Char} {rest : List (List Char)} {c : Component}
    (h : p.segments = s :: rest) (hs : Component.ofSegment? false s = some c) :
    p.isAbsolute = false ∧ p.components = inner p.segments := by
  have hne : ¬ (s = [] ∨ s = ['.']) := by
    rw [← Component.ofSegment?_eq_none, hs]
    simp
  have hrel := isAbsolute_of_segments (fun hnil => hne (Or.inl hnil)) h
  refine ⟨hrel, ?_⟩
  rw [components_relative hrel h, Component.ofSegment?_first, if_neg fun hhere => hne (Or.inr hhere), h, inner, inner,
    List.filterMap_cons, hs]
  rfl

/-- What stands between a mark behind the first one and the last mark is a relative path with these marks. -/
theorem slice_spec {p : Path} {k i j : Nat} {c last : Component} {more : List (Component × Nat)} (hk : 0 < k)
    (hdrop : p.marks.drop k = (c, i) :: more) (hlast : p.marks.getLast? = some (last, j)) :
    ((p.slice i j).isAbsolute = false ∧ (p.slice i j).components = inner (p.slice i j).segments) ∧
      inner (p.slice i j).segments = (p.marks.drop k).map Prod.fst ∧ (p.slice i j).EndsNamed := by
  obtain ⟨hfirst, hmarks, s, rest, hs, hc⟩ := marks_drop hk hdrop
  have hlast' : (marksFrom p.componentAt i (p.segments.drop i)).getLast? = some (last, j) := by
    have hlen : ¬ p.marks.length ≤ k := by
      intro hle
      rw [List.drop_eq_nil_of_le hle] at hdrop
      cases hdrop
    rw [hmarks, ← hdrop, List.getLast?_drop, if_neg hlen, hlast]
  obtain ⟨e, hj, hkept, a, s', hend, hs'⟩ := marksFrom_getLast? hlast'
  have hat {m : Nat} (hm : i ≤ m) : p.componentAt m = Component.ofSegment? false :=
    componentAt_eq (hfirst.imp_right fun h => Nat.lt_of_lt_of_le h hm)
  have hparts : (p.segments.take (j + 1)).drop i = (p.segments.drop i).take (e + 1) := by
    rw [List.drop_take]
    congr 1
    omega
  have hsegments : (p.slice i j).segments = (p.segments.drop i).take (e + 1) := by
    rw [slice_segments (by rw [hparts, hend]; simp), hparts]
  refine ⟨?_, ?_, a, s', by rw [hsegments, hend], ?_⟩
  · rw [hs, List.take_succ_cons] at hsegments
    exact components_of_segments hsegments (by rwa [← hat (Nat.le_refl i)])
  · have hinner (segments : List (List Char)) : (marksFrom p.componentAt i segments).map Prod.fst = inner segments :=
      marksFrom_fst fun m s hm => congrFun (hat hm) s
    rw [hsegments, ← hinner, hkept, hmarks, hdrop]
  · rw [← hat (by omega : i ≤ j), hs']
    rfl

theorem stripPrefix?_spec {p base q : Path} (hb : base.components ≠ []) (h : p.stripPrefix? base = some q) :
    (q.isAbsolute = false ∧ q.components = inner q.segments) ∧ p.components = base.components ++ inner q.segments ∧
      (base.components ≠ p.components → q.EndsNamed) := by
  unfold stripPrefix? at h
  split at h
  · next hbase =>
    have htake := List.prefix_iff_eq_take.1 (List.isPrefixOf_iff_prefix.1 hbase)
    have hsplit : p.components = base.components ++ (p.marks.drop base.components.length).map Prod.fst := by
      conv_lhs => rw [← List.take_append_drop base.components.length p.components]
      rw [← htake, List.map_drop]
      rfl
    split at h
    · next c i more last j hdrop hlast =>
      obtain rfl : p.slice i j = q := by simpa [hb] using h
      obtain ⟨hrel, hinner, hends⟩ := slice_spec (List.length_pos_iff.2 hb) hdrop hlast
      exact ⟨hrel, by rw [hsplit, hinner], fun _ => hends⟩
    · next hnone =>
      obtain rfl : empty = q := by simpa using h
      have hdrop : p.marks.drop base.components.length = [] := by
        cases hm : p.marks.drop base.components.length with
        | nil => rfl
        | cons mark more =>
          cases hlast : p.marks.getLast? with
          | none => simp [List.getLast?_eq_none_iff.1 hlast] at hm
          | some last => exact (hnone _ _ _ _ _ hm hlast).elim
      have heq : p.components = base.components := by rw [hsplit, hdrop, List.map_nil, List.append_nil]
      refine ⟨⟨rfl, rfl⟩, ?_, fun hne => absurd heq.symm hne⟩
      rw [heq]
      exact (List.append_nil _).symm
  · cases h

theorem components_ne_nil {p : Path} (h : p.text ≠ "") : p.components ≠ [] := by
  cases habs : p.isAbsolute with
  | true => simp [components_absolute habs]
  | false =>
    cases hs : p.segments with
    | nil => exact absurd hs (splitAt_ne_nil _ _)
    | cons s rest =>
      have htext := joinWith_splitAt '/' p.text.toList
      rw [← segments, hs] at htext
      have hne : s ≠ [] := by
        rintro rfl
        cases rest with
        | nil => exact h (String.toList_eq_nil_iff.1 htext.symm)
        | cons s' rest => simp [isAbsolute, ← htext, joinWith] at habs
      rw [components_relative habs hs, Component.ofSegment?_first]
      rcases Component.ofSegment?_cases s with ⟨rfl | rfl, h⟩ | ⟨-, h⟩ | ⟨-, h⟩
      · exact absurd rfl hne
      · simp
      · split <;> simp [h]
      · split <;> simp [h]

theorem stripPrefix?_isSome {p base : Path} (h : base.components <+: p.components) :
    ∃ q, p.stripPrefix? base = some q := by
  rw [stripPrefix?, if_pos (List.isPrefixOf_iff_prefix.2 h)]
  split <;> exact ⟨_, rfl⟩

theorem EndsNamed.join {p q : Path} (hp : p.text ≠ "") (hq : q.isAbsolute = false) (h : q.EndsNamed) :
    (p.join q).EndsNamed := by
  obtain ⟨b, s, hb, hs⟩ := h
  obtain ⟨a, ha, -⟩ := segments_join hp hq
  exact ⟨a ++ b, s, by rw [ha, hb, List.append_assoc], hs⟩

/-- A path that lies below the root, or is absolute, is found again behind the root. -/
theorem join_relativeTo {p root : Path} (hroot : root.text ≠ "")
    (h : p.isAbsolute = true ∨ root.components <+: p.components) :
    root.join (p.relativeTo root) = p ∨ (root.join (p.relativeTo root)).components = p.components ∧
      (root.components ≠ p.components → (root.join (p.relativeTo root)).EndsNamed) := by
  unfold relativeTo
  cases hq : p.stripPrefix? root with
  | some q =>
    obtain ⟨⟨habs, -⟩, hcomponents, hends⟩ := stripPrefix?_spec (components_ne_nil hroot) hq
    refine Or.inr ⟨?_, fun hne => (hends hne).join hroot habs⟩
    rw [Option.getD_some, components_join hroot habs, hcomponents]
  | none =>
    have habs := h.resolve_right fun hbase => by
      obtain ⟨q, hsome⟩ := stripPrefix?_isSome hbase
      rw [hsome] at hq
      cases hq
    exact Or.inl (by rw [Option.getD_none, join, if_pos habs])

theorem components_relativeTo {p root : Path} (hroot : root.text ≠ "") {behind : List Component} (hne : behind ≠ [])
    (h : p.components = root.components ++ behind) :
    (p.relativeTo root).isAbsolute = false ∧ (p.relativeTo root).components = behind ∧
      (p.relativeTo root).EndsNamed := by
  obtain ⟨q, hq⟩ := stripPrefix?_isSome ⟨behind, h.symm⟩
  obtain ⟨⟨habs, hinner⟩, hcomponents, hends⟩ := stripPrefix?_spec (components_ne_nil hroot) hq
  rw [relativeTo, hq, Option.getD_some]
  refine ⟨habs, ?_, hends fun heq => ?_⟩
  · rw [hinner]
    exact List.append_cancel_left (hcomponents.symm.trans h)
  · rw [← heq] at h
    exact hne (List.self_eq_append_right.1 h)

theorem mem_inner {segments : List (List Char)} {c : Component} (h : c ∈ inner segments) :
    c = .up ∨ ∃ s ∈ segments, c = .name (String.ofList s) := by
  obtain ⟨s, hs, hc⟩ := List.mem_filterMap.1 h
  rcases Component.ofSegment?_cases s with ⟨-, h⟩ | ⟨-, h⟩ | ⟨-, h⟩
  · simp [h] at hc
  · exact Or.inl (by simpa [h] using hc.symm)
  · exact Or.inr ⟨s, hs, by simpa [h] using hc.symm⟩

theorem components_eq (p : Path) : p.components = .root :: inner p.segments ∧ p.isAbsolute = true ∨
    p.components = .here :: inner p.segments ∧ p.isAbsolute = false ∨
    p.components = inner p.segments ∧ p.isAbsolute = false := by
  cases habs : p.isAbsolute with
  | true => exact Or.inl ⟨components_absolute habs, rfl⟩
  | false =>
    cases hs : p.segments with
    | nil => exact absurd hs (splitAt_ne_nil _ _)
    | cons s rest =>
      rw [components_relative habs hs, Component.ofSegment?_first]
      by_cases hhere : s = ['.']
      · exact Or.inr (Or.inl ⟨by simp [hhere, inner, Component.ofSegment?], rfl⟩)
      · refine Or.inr (Or.inr ⟨?_, rfl⟩)
        rw [if_neg hhere, inner, inner, List.filterMap_cons]
        cases Component.ofSegment? false s <;> rfl

theorem root_notMem_inner (segments : List (List Char)) : Component.root ∉ inner segments := by
  intro h
  rcases mem_inner h with h | ⟨s, -, h⟩ <;> cases h

theorem isAbsolute_eq_contains (p : Path) : p.isAbsolute = p.components.contains .root := by
  have hroot := root_notMem_inner p.segments
  rcases components_eq p with ⟨hp, hpa⟩ | ⟨hp, hpa⟩ | ⟨hp, hpa⟩ <;> simp [hp, hpa, hroot]

theorem inner_segments (p : Path) : inner p.segments = p.components.filter fun c => c != .root && c != .here := by
  have hinner : (inner p.segments).filter (fun c => c != .root && c != .here) = inner p.segments := by
    rw [List.filter_eq_self]
    intro c hc
    rcases mem_inner hc with rfl | ⟨s, -, rfl⟩ <;> rfl
  rcases components_eq p with ⟨hp, -⟩ | ⟨hp, -⟩ | ⟨hp, -⟩
  · rw [hp, List.filter_cons_of_neg (by simp), hinner]
  · rw [hp, List.filter_cons_of_neg (by simp), hinner]
  · rw [hp, hinner]

theorem mem_text_iff {p : Path} {c : Char} (hslash : c ≠ '/') (hdot : c ≠ '.') :
    c ∈ p.text.toList ↔ ∃ name, .name name ∈ inner p.segments ∧ c ∈ name.toList := by
  have hsegment : c ∈ p.text.toList ↔ ∃ s ∈ p.segments, c ∈ s := by
    rw [← joinWith_splitAt '/' p.text.toList, ← segments, mem_joinWith (by simpa using hslash)]
  rw [hsegment]
  constructor
  · rintro ⟨s, hs, hc⟩
    refine ⟨String.ofList s, List.mem_filterMap.2 ⟨s, hs, ?_⟩, by simpa using hc⟩
    rcases Component.ofSegment?_cases s with ⟨rfl | rfl, -⟩ | ⟨rfl, -⟩ | ⟨-, h⟩
    · cases hc
    · simp [hdot] at hc
    · simp [hdot] at hc
    · exact h
  · rintro ⟨name, hname, hc⟩
    rcases mem_inner hname with h | ⟨s, hs, h⟩
    · cases h
    · cases h
      exact ⟨s, hs, by simpa using hc⟩

theorem seen_of_below {root q p : Path} (hroot : root.text ≠ "") (h : (root.join q).components <+: p.components) :
    p.isAbsolute = true ∨ root.components <+: p.components := by
  cases hq : q.isAbsolute with
  | true =>
    left
    rw [join, if_pos hq] at h
    rw [isAbsolute_eq_contains, List.contains_iff_mem] at hq ⊢
    exact h.subset hq
  | false =>
    right
    rw [components_join hroot hq] at h
    exact (List.prefix_append _ _).trans h

end Path

end Granularity
