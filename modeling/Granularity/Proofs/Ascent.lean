import Granularity.Proofs.Relative
import Mathlib.Data.List.Chain

/-!
The way up from a path. Each step takes off the last component, however it is spelled, so the way has one path for each
component behind the root and one for where it ends: at the root, or at the empty path.
-/

namespace Granularity.Path

variable {p q : Path}

/-- The number of components, a leading root not counted. -/
def depth (p : Path) : Nat :=
  match p.components with
  | .root :: behind => behind.length
  | all => all.length

theorem ofSegment?_ne_root (first : Bool) (s : List Char) : Component.ofSegment? first s ≠ some .root := by
  unfold Component.ofSegment?
  split_ifs <;> simp

theorem exists_marks (p : Path) : ∃ marks, p.marks = p.rootMark ++ marks ∧ Component.root ∉ marks.map Prod.fst := by
  refine ⟨_, marks_eq p, fun h => ?_⟩
  obtain ⟨⟨c, j⟩, hmark, rfl⟩ := List.mem_map.1 h
  obtain ⟨s, -, hs⟩ := List.mem_filterMap.1 hmark
  obtain ⟨c, hc, heq⟩ := Option.map_eq_some_iff.1 hs
  exact ofSegment?_ne_root _ s.1 (hc.trans (congrArg (some ·.1) heq))

theorem depth_eq {marks : List (Component × Nat)} (h : p.marks = p.rootMark ++ marks)
    (hroot : Component.root ∉ marks.map Prod.fst) : p.depth = marks.length := by
  unfold depth
  rw [components, h, rootMark, List.map_append]
  cases p.isAbsolute with
  | true => exact List.length_map _
  | false =>
    rw [if_neg Bool.false_ne_true, List.map_nil, List.nil_append]
    split
    · next behind hmarks => simp [hmarks] at hroot
    · exact List.length_map _

theorem components_of_depth_zero (h : p.depth = 0) :
    p.components = if p.isAbsolute then [.root] else [] := by
  obtain ⟨marks, hmarks, hroot⟩ := exists_marks p
  obtain rfl : marks = [] := List.eq_nil_of_length_eq_zero ((depth_eq hmarks hroot).symm.trans h)
  rw [components, hmarks, rootMark]
  cases p.isAbsolute <;> rfl

theorem eq_empty_of_depth_zero (h : p.depth = 0) (hrel : p.isAbsolute = false) : p = empty := by
  have hp : p.components = [] := by simpa [hrel] using components_of_depth_zero h
  exact (eq_empty_or_text_ne p).resolve_right fun hne => components_ne_nil hne hp

theorem parent?_of_depth_zero (h : p.depth = 0) : p.parent? = none := by
  cases habs : p.isAbsolute with
  | false =>
    rw [eq_empty_of_depth_zero h habs]
    rfl
  | true =>
    have hp := components_of_depth_zero h
    rw [if_pos habs, components] at hp
    obtain ⟨⟨c, j⟩, hmarks, rfl⟩ := List.map_eq_singleton_iff.1 hp
    rw [parent?, hmarks]
    rfl

theorem parent?_of_concat {front : List (Component × Nat)} {c last : Component} {i j : Nat}
    (h : p.marks = front ++ [(c, i), (last, j)]) (hlast : last ≠ .root) : p.parent? = some (p.through i) := by
  have hreverse : p.marks.reverse = (last, j) :: (c, i) :: front.reverse := by simp [h]
  rw [parent?, hreverse]
  cases last with
  | root => exact absurd rfl hlast
  | here => rfl
  | up => rfl
  | name s => rfl

theorem parent?_of_single {last : Component} {j : Nat} (h : p.marks = [(last, j)])
    (hlast : last ≠ .root) : p.parent? = some empty := by
  rw [parent?, h]
  cases last with
  | root => exact absurd rfl hlast
  | here => rfl
  | up => rfl
  | name s => rfl

/-- The path above lacks the last component. The last step leads to the root or to the empty path, spelled so. -/
theorem exists_parent? (h : 0 < p.depth) : ∃ q, p.parent? = some q ∧
    q.components = p.components.dropLast ∧ (p.depth = 1 → q = if p.isAbsolute then ⟨"/"⟩ else empty) := by
  obtain ⟨marks, hmarks, hroot⟩ := exists_marks p
  have hdepth := depth_eq hmarks hroot
  obtain ⟨above, ⟨last, j⟩, rfl⟩ := (List.eq_nil_or_concat marks).resolve_left fun hnil => by simp [hdepth, hnil] at h
  rw [List.concat_eq_append] at hmarks hroot hdepth
  have hlast : last ≠ .root := fun heq => hroot (by simp [heq])
  rcases List.eq_nil_or_concat (p.rootMark ++ above) with hfront | ⟨front, ⟨c, i⟩, hfront⟩
  · have hsingle : p.marks = [(last, j)] := by rw [hmarks, ← List.append_assoc, hfront, List.nil_append]
    have hrel : ¬ p.isAbsolute = true := fun habs => by simp [rootMark, habs] at hfront
    refine ⟨empty, parent?_of_single hsingle hlast, ?_, fun _ => by rw [if_neg hrel]⟩
    rw [components, components, hsingle]
    rfl
  · have hpair : p.marks = front ++ [(c, i), (last, j)] := by
      rw [hmarks, ← List.append_assoc, hfront, List.concat_eq_append, List.append_assoc]
      rfl
    have hat : p.marks[front.length]? = some (c, i) := by simp [hpair]
    refine ⟨p.through i, parent?_of_concat hpair hlast, ?_, fun hone => ?_⟩
    · have hlength : p.components.length - 1 = front.length + 1 := by simp [components, hpair]
      rw [components_through hat, List.dropLast_eq_take, hlength]
    · -- nothing stands between the root and the last component
      obtain rfl : above = [] := by simpa [hdepth] using hone
      cases habs : p.isAbsolute with
      | false => simp [rootMark, habs] at hfront
      | true =>
        obtain ⟨-, -, rfl⟩ : front = [] ∧ c = .root ∧ i = 0 := by
          simpa [rootMark, habs, List.cons_eq_append_iff] using hfront
        simp [through, habs]

theorem depth_of_dropLast (h : 0 < p.depth) (hq : q.components = p.components.dropLast) :
    q.isAbsolute = p.isAbsolute ∧ p.depth = q.depth + 1 := by
  obtain ⟨marks, hmarks, hroot⟩ := exists_marks p
  obtain ⟨marks', hmarks', hroot'⟩ := exists_marks q
  have hdepth := depth_eq hmarks hroot
  have hdepth' := depth_eq hmarks' hroot'
  have hne : marks ≠ [] := fun hnil => by simp [hdepth, hnil] at h
  have habove : q.components = p.rootMark.map Prod.fst ++ (marks.map Prod.fst).dropLast := by
    rw [hq, components, hmarks, List.map_append, List.dropLast_append_of_ne_nil (by simpa using hne)]
  have habs : q.isAbsolute = p.isAbsolute := by
    have hnot : Component.root ∉ (marks.map Prod.fst).dropLast := fun hmem => hroot (List.dropLast_subset _ hmem)
    rw [isAbsolute_eq_contains q, habove, rootMark]
    cases p.isAbsolute <;> simp [hnot]
  refine ⟨habs, ?_⟩
  have hlength := congrArg List.length habove
  rw [components, hmarks', rootMark, rootMark, habs] at hlength
  have hpos := List.length_pos_iff.2 hne
  simp only [List.length_map, List.length_append, List.length_dropLast] at hlength
  omega

theorem ancestors_of_depth_zero (h : p.depth = 0) (n : Nat) : p.ancestors (n + 1) = [p] := by
  rw [ancestors, parent?_of_depth_zero h]

theorem exists_ancestors (h : 0 < p.depth) : ∃ q : Path, (∀ n, p.ancestors (n + 1) = p :: q.ancestors n) ∧
    q.components = p.components.dropLast ∧ q.isAbsolute = p.isAbsolute ∧ p.depth = q.depth + 1 ∧
    (q.depth = 0 → q = if p.isAbsolute then ⟨"/"⟩ else empty) := by
  obtain ⟨q, hparent, hcomponents, hlast⟩ := exists_parent? h
  obtain ⟨habs, hdepth⟩ := depth_of_dropLast h hcomponents
  refine ⟨q, fun n => ?_, hcomponents, habs, hdepth, fun hzero => hlast (by omega)⟩
  rw [ancestors, hparent]

theorem length_ancestors (p : Path) (max : Nat) : (p.ancestors max).length = min max (p.depth + 1) := by
  induction max generalizing p with
  | zero => simp [ancestors]
  | succ n ih =>
    rcases Nat.eq_zero_or_pos p.depth with hzero | hpos
    · rw [ancestors_of_depth_zero hzero, hzero, List.length_singleton]
      omega
    · obtain ⟨q, hup, -, -, hdepth, -⟩ := exists_ancestors hpos
      rw [hup, List.length_cons, ih q, hdepth]
      omega

theorem head?_ancestors (p : Path) {max : Nat} (h : 0 < max) : (p.ancestors max).head? = some p := by
  cases max with
  | zero => exact absurd h (Nat.lt_irrefl 0)
  | succ n => rfl

theorem isChain_ancestors (p : Path) (max : Nat) :
    (p.ancestors max).IsChain fun below above => above.components = below.components.dropLast := by
  induction max generalizing p with
  | zero => exact .nil
  | succ n ih =>
    rcases Nat.eq_zero_or_pos p.depth with hzero | hpos
    · rw [ancestors_of_depth_zero hzero]
      exact .singleton p
    · obtain ⟨q, hup, hcomponents, -⟩ := exists_ancestors hpos
      rw [hup]
      refine (ih q).cons fun above habove => ?_
      cases n with
      | zero => cases habove
      | succ n =>
        obtain rfl : q = above := Option.some.inj habove
        exact hcomponents

theorem getLast?_ancestors (p : Path) {max : Nat} (h : p.depth < max) : ∃ top : Path,
    (p.ancestors max).getLast? = some top ∧ top.isAbsolute = p.isAbsolute ∧ top.depth = 0 ∧
      (0 < p.depth → top = if p.isAbsolute then ⟨"/"⟩ else empty) := by
  induction max generalizing p with
  | zero => exact absurd h (Nat.not_lt_zero _)
  | succ n ih =>
    rcases Nat.eq_zero_or_pos p.depth with hzero | hpos
    · refine ⟨p, ?_, rfl, hzero, fun hpos => absurd hzero (Nat.ne_of_gt hpos)⟩
      rw [ancestors_of_depth_zero hzero, List.getLast?_singleton]
    · obtain ⟨q, hup, -, habs, hdepth, hend⟩ := exists_ancestors hpos
      obtain ⟨top, htop, htopabs, htopdepth, hspelled⟩ := ih q (by omega)
      refine ⟨top, ?_, htopabs.trans habs, htopdepth, fun _ => ?_⟩
      · rw [hup, List.getLast?_cons, htop, Option.getD_some]
      · rcases Nat.eq_zero_or_pos q.depth with hq | hq
        · obtain ⟨k, rfl⟩ : ∃ k, n = k + 1 := ⟨n - 1, by omega⟩
          rw [ancestors_of_depth_zero hq, List.getLast?_singleton] at htop
          rw [← Option.some.inj htop, hend hq]
        · rw [hspelled hq, habs]

/-- The way up has one path for each component behind the root and one more, as far as it is not cut. It begins with
the path itself, each step takes off the last component, and it ends with the root of an absolute path, spelled so
unless the path itself is another spelling of the root, and with the empty path of a relative one. -/
theorem ancestors_ascend (start : Path) (max : Nat) :
    (start.ancestors max).length = min max (start.depth + 1) ∧
      (0 < max → (start.ancestors max).head? = some start) ∧
      ((start.ancestors max).IsChain fun below above => above.components = below.components.dropLast) ∧
      (start.depth < max → ∃ top : Path, (start.ancestors max).getLast? = some top ∧
        (start.isAbsolute = true → top.components = (⟨"/"⟩ : Path).components ∧ (0 < start.depth → top = ⟨"/"⟩)) ∧
        (start.isAbsolute = false → top = empty)) := by
  refine ⟨length_ancestors start max, head?_ancestors start, isChain_ancestors start max, fun h => ?_⟩
  obtain ⟨top, htop, habs, hdepth, hspelled⟩ := getLast?_ancestors start h
  refine ⟨top, htop, fun hroot => ⟨?_, fun hpos => ?_⟩, fun hrel => ?_⟩
  · rw [components_of_depth_zero hdepth, habs, if_pos hroot]
    rfl
  · rw [hspelled hpos, if_pos hroot]
  · exact eq_empty_of_depth_zero hdepth (habs.trans hrel)

/-- Slashes and dots between the components make no steps of their own. -/
theorem ancestors_ascend_spelled :
    ((⟨"//a//./b/"⟩ : Path).ancestors 9).length = 3 ∧
      ((⟨"//a//./b/"⟩ : Path).ancestors 9).head? = some ⟨"//a//./b/"⟩ ∧
      ((⟨"//a//./b/"⟩ : Path).ancestors 9).getLast? = some ⟨"/"⟩ ∧
      ((⟨"./a/."⟩ : Path).ancestors 9).getLast? = some empty := by
  refine ⟨(ancestors_ascend ⟨"//a//./b/"⟩ 9).1, (ancestors_ascend ⟨"//a//./b/"⟩ 9).2.1 (by decide), ?_, ?_⟩
  · obtain ⟨top, htop, habs, -⟩ := (ancestors_ascend ⟨"//a//./b/"⟩ 9).2.2.2 (by decide)
    rw [htop, (habs (by decide)).2 (by decide)]
  · obtain ⟨top, htop, -, hrel⟩ := (ancestors_ascend ⟨"./a/."⟩ 9).2.2.2 (by decide)
    rw [htop, hrel (by decide)]

end Granularity.Path
