import Granularity.Detector
import Granularity.Priority
import Granularity.Proofs.Score
import Mathlib.Algebra.Order.Field.Rat
import Mathlib.Data.Fintype.Basic
import Mathlib.Data.Nat.Cast.Order.Ring
import Mathlib.Tactic.NormNum

namespace Granularity

open Float.Model Float.Model.UnpackedFloat

/-- The number that a double stands for. -/
def Binary64.value? (x : Float) : Option ℚ :=
  match x.toModel.unpack with
  | .zero _ => some 0
  | .finite s m e _ => some (s.apply m * 2 ^ e)
  | _ => none

open Binary64

namespace IssueKind

def severity : IssueKind → Severity
  | .inputLoss => .high
  | .crossAccess => .medium
  | .softWarning => .medium

def fileCount : IssueKind → Nat
  | .inputLoss => 2
  | .crossAccess => 2
  | .softWarning => 1

def score (w : Weights) (k : IssueKind) (missing : Nat) : Float :=
  w.ofSeverity k.severity + w.ofKind k + Weights.capped w.perDimension missing w.dimensionCap +
    Weights.capped w.perFile k.fileCount w.fileCap

def place (k : IssueKind) : Nat :=
  all.idxOf k

theorem score_default (k : IssueKind) (n : Nat) : k.score .default n = k.score .default (min n 4) := by
  have hcapped : Weights.capped Weights.default.perDimension n Weights.default.dimensionCap =
      Weights.capped Weights.default.perDimension (min n 4) Weights.default.dimensionCap := capped_half n
  rw [score, score, hcapped]

theorem mem_all (k : IssueKind) : k ∈ all := by
  cases k <;> decide

theorem orderKey_score_le_iff (k : IssueKind) {m n : Nat} (hm : m < 5) (hn : n < 5) :
    orderKey (k.score .default m) ≤ orderKey (k.score .default n) ↔ m ≤ n := by
  have hall : ∀ k ∈ all, ∀ m < 5, ∀ n < 5,
      orderKey (k.score .default m) ≤ orderKey (k.score .default n) ↔ m ≤ n := by decide +kernel
  exact hall k k.mem_all m hm n hn

theorem place_le_of_orderKey_le {j k : IssueKind} {m n : Nat} (hm : m < 5) (hn : n < 5)
    (hj : j = .softWarning → m = 0) (hk : k = .softWarning → n = 0)
    (h : orderKey (k.score .default n) ≤ orderKey (j.score .default m)) : j.place ≤ k.place := by
  have hall : ∀ j ∈ all, ∀ k ∈ all, ∀ m < 5, ∀ n < 5, (j = .softWarning → m = 0) → (k = .softWarning → n = 0) →
      orderKey (k.score .default n) ≤ orderKey (j.score .default m) → j.place ≤ k.place := by decide +kernel
  exact hall j j.mem_all k k.mem_all m hm n hn hj hk h

theorem score_inputLoss {n : Nat} (hn : n < 5) (hpos : 1 ≤ n) :
    value? (inputLoss.score .default n) = some (7.5 + 0.5 * (n : ℚ)) ∧ 8 ≤ inputLoss.score .default n ∧
      inputLoss.score .default n ≤ 9.5 ∧ Tier.ofScore (inputLoss.score .default n) = .critical := by
  have hall : ∀ n < 5, 1 ≤ n → value? (inputLoss.score .default n) = some (7.5 + 0.5 * (n : ℚ)) ∧
      8 ≤ inputLoss.score .default n ∧ inputLoss.score .default n ≤ 9.5 ∧
      Tier.ofScore (inputLoss.score .default n) = .critical := by decide +kernel
  exact hall n hn hpos

theorem score_crossAccess {n : Nat} (hn : n < 5) (hpos : 1 ≤ n) :
    value? (crossAccess.score .default n) = some (4 + 0.5 * (n : ℚ)) ∧ 4.5 ≤ crossAccess.score .default n ∧
      crossAccess.score .default n ≤ 6 ∧
      Tier.ofScore (crossAccess.score .default n) = if 4 ≤ n then .high else .medium := by
  have hall : ∀ n < 5, 1 ≤ n → value? (crossAccess.score .default n) = some (4 + 0.5 * (n : ℚ)) ∧
      4.5 ≤ crossAccess.score .default n ∧ crossAccess.score .default n ≤ 6 ∧
      Tier.ofScore (crossAccess.score .default n) = if 4 ≤ n then .high else .medium := by decide +kernel
  exact hall n hn hpos

theorem score_softWarning :
    value? (softWarning.score .default 0) = some (2.25 : ℚ) ∧ Tier.ofScore (softWarning.score .default 0) = .low := by
  decide +kernel

end IssueKind

/-- Severity, files and missing dimensions are those of the kind. -/
structure Issue.FitsKind (i : Issue) : Prop where
  severity : i.severity = i.kind.severity
  files : i.files.length = i.kind.fileCount
  missing : i.missing = [] ↔ i.kind = .softWarning

theorem Issue.FitsKind.riskScore_eq {i : Issue} (h : i.FitsKind) (w : Weights) :
    i.riskScore w = i.kind.score w i.missing.length := by
  simp only [Issue.riskScore, Breakdown.total, Issue.breakdown, h.severity, h.files]
  rfl

theorem checkPair_fitsKind {s : Schema} {c : Container} {i : Issue} (h : checkPair s c = some i) : i.FitsKind := by
  simp only [checkPair] at h
  split at h
  · cases h
  · next hmissing =>
    cases h
    exact ⟨rfl, rfl, by simpa using hmissing⟩

theorem checkAccessor_fitsKind {typeName : String} {a : Accessor} {c : Container} {i : Issue}
    (h : checkAccessor typeName a c = some i) : i.FitsKind := by
  simp only [checkAccessor] at h
  split at h
  · cases h
  · next hmissing =>
    cases h
    exact ⟨rfl, rfl, by simpa using hmissing⟩

theorem run_fitsKind (c : Conventions) (m : Models) : ∀ i ∈ Detector.run (Detector.all c) m, i.FitsKind := by
  intro i hi
  obtain ⟨d, hd, hi⟩ := List.mem_flatMap.1 hi
  simp only [Detector.all, List.mem_cons, List.not_mem_nil, or_false] at hd
  rcases hd with rfl | rfl | rfl
  · obtain ⟨⟨s, containers⟩, -, hi⟩ := List.mem_flatMap.1 hi
    obtain ⟨c, -, hi⟩ := List.mem_filterMap.1 hi
    exact checkPair_fitsKind hi
  · obtain ⟨⟨typeName, accessors, containers⟩, -, hi⟩ := List.mem_flatMap.1 hi
    obtain ⟨a, -, hi⟩ := List.mem_flatMap.1 hi
    obtain ⟨c, -, hi⟩ := List.mem_filterMap.1 hi
    exact checkAccessor_fitsKind hi
  · obtain ⟨w, -, rfl⟩ := List.mem_map.1 hi
    exact ⟨rfl, rfl, by simp [warningIssue]⟩

/-- An issue that fits its kind, scored with the default weights. -/
structure Issue.Graded (i : Issue) : Prop extends i.FitsKind where
  score : i.score = i.kind.score .default (min i.missing.length 4)

theorem Issue.FitsKind.graded {i : Issue} (h : i.FitsKind) : (i.scored .default).Graded where
  severity := h.severity
  files := h.files
  missing := h.missing
  score := (h.riskScore_eq .default).trans (i.kind.score_default _)

/-- The scores and tiers of the three kinds. -/
def Issue.Placed (i : Issue) : Prop :=
  match i.kind with
  | .inputLoss =>
    value? i.score = some (7.5 + min (0.5 * (i.missing.length : ℚ)) 2) ∧ 8 ≤ i.score ∧ i.score ≤ 9.5 ∧
      Tier.ofScore i.score = .critical
  | .crossAccess =>
    value? i.score = some (4 + min (0.5 * (i.missing.length : ℚ)) 2) ∧ 4.5 ≤ i.score ∧ i.score ≤ 6 ∧
      Tier.ofScore i.score = if 4 ≤ i.missing.length then .high else .medium
  | .softWarning => value? i.score = some (2.25 : ℚ) ∧ Tier.ofScore i.score = .low

theorem min_half (n : Nat) : min (0.5 * (n : ℚ)) 2 = 0.5 * (min n 4 : Nat) := by
  rw [Nat.cast_min, mul_min_of_nonneg _ _ (by norm_num : (0 : ℚ) ≤ 0.5)]
  norm_num

theorem Issue.FitsKind.length_pos {i : Issue} (h : i.FitsKind) (hkind : i.kind ≠ .softWarning) :
    1 ≤ i.missing.length := by
  rw [Nat.one_le_iff_ne_zero, Ne, List.length_eq_zero_iff, h.missing]
  exact hkind

theorem Issue.FitsKind.min_eq_zero {i : Issue} (h : i.FitsKind) (hkind : i.kind = .softWarning) :
    min i.missing.length 4 = 0 := by
  simp [h.missing.2 hkind]

theorem Issue.Graded.placed {i : Issue} (h : i.Graded) : i.Placed := by
  rw [Issue.Placed, h.score, min_half]
  have hcap : min i.missing.length 4 < 5 := by omega
  cases hkind : i.kind with
  | inputLoss =>
    have hpos := h.length_pos (by simp [hkind])
    exact IssueKind.score_inputLoss hcap (by omega)
  | crossAccess =>
    have hpos := h.length_pos (by simp [hkind])
    have hfour : 4 ≤ i.missing.length ↔ 4 ≤ min i.missing.length 4 := by omega
    simpa only [hfour] using IssueKind.score_crossAccess hcap (by omega)
  | softWarning =>
    rw [h.min_eq_zero hkind]
    exact IssueKind.score_softWarning

end Granularity
