import Granularity.Proofs.Monotone
import Granularity.Proofs.Plan

/-!
Bounds of the scores. A score and the highest score are sums of four parts, added up in the same order, and each part
of the first is at most that of the second. Since rounded sums rise with their parts, no score is above the highest,
and an issue with more dimensions or files has no lower score. A product may become infinite on the way: it is cut to
the cap like every other that is too large.
-/

namespace Granularity

open Binary64

namespace Weights

section

variable {x x' y : Float}

theorem smaller_of_nan (h : x.isNaN = true) : smaller x y = y := by
  rw [smaller, h, Bool.true_or, if_pos rfl]

theorem isNaN_smaller (hy : y.isNaN = false) : (smaller x y).isNaN = false := by
  cases hx : x.isNaN with
  | true => rwa [smaller_of_nan hx]
  | false =>
    rw [smaller]
    split
    · exact hy
    · exact hx

theorem signedBits_smaller (hx : x.isNaN = false) (hy : y.isNaN = false) :
    signedBits (smaller x y) = min (signedBits x) (signedBits y) := by
  rw [smaller, hx, Bool.false_or]
  by_cases h : y < x
  · rw [if_pos (decide_eq_true h)]
    rw [lt_iff hy hx] at h
    omega
  · rw [if_neg (by simpa using h)]
    rw [lt_iff hy hx] at h
    omega

theorem isNaN_larger (hx : x.isNaN = false) (hy : y.isNaN = false) : (larger x y).isNaN = false := by
  rw [larger]
  split
  · exact hy
  · exact hx

theorem signedBits_larger (hx : x.isNaN = false) (hy : y.isNaN = false) :
    signedBits (larger x y) = max (signedBits x) (signedBits y) := by
  rw [larger, hx, Bool.false_or]
  by_cases h : x < y
  · rw [if_pos (decide_eq_true h)]
    rw [lt_iff hx hy] at h
    omega
  · rw [if_neg (by simpa using h)]
    rw [lt_iff hx hy] at h
    omega

theorem smaller_le (hy : y.isNaN = false) : smaller x y ≤ y := by
  rw [le_iff (isNaN_smaller hy) hy]
  cases hx : x.isNaN with
  | true => rw [smaller_of_nan hx]
  | false =>
    rw [signedBits_smaller hx hy]
    exact min_le_right _ _

theorem smaller_le_smaller (h : x ≤ x') (hy : y.isNaN = false) : smaller x y ≤ smaller x' y := by
  obtain ⟨hx, hx'⟩ := not_isNaN_of_le h
  rw [le_iff hx hx'] at h
  rw [le_iff (isNaN_smaller hy) (isNaN_smaller hy), signedBits_smaller hx hy, signedBits_smaller hx' hy]
  exact min_le_min_right _ h

theorem le_larger {a b c : Float} (ha : a.isNaN = false) (hb : b.isNaN = false) (hc : c.isNaN = false) :
    ∀ x ∈ [a, b, c], x ≤ larger (larger a b) c := by
  have hab := isNaN_larger ha hb
  have hlargest := signedBits_larger hab hc
  rw [signedBits_larger ha hb] at hlargest
  intro x hx
  have hnumber : x.isNaN = false := by
    simp only [List.mem_cons, List.not_mem_nil, or_false] at hx
    rcases hx with rfl | rfl | rfl <;> assumption
  rw [le_iff hnumber (isNaN_larger hab hc), hlargest]
  simp only [List.mem_cons, List.not_mem_nil, or_false] at hx
  rcases hx with rfl | rfl | rfl <;> omega

end

section Capped

variable {each cap : Float}

theorem capped_le (hcap : 0 ≤ cap) (n : ℕ) : capped each n cap ≤ cap :=
  smaller_le (isNaN_of_nonneg hcap)

/-- A count so large that it is infinite reaches the cap, also if each item adds nothing. -/
theorem le_capped_of_infinite (heach : 0 ≤ each) (hcap : 0 ≤ cap) {n : ℕ}
    (hn : (Float.ofNat n).toModel.unpack = .infinity .positive) : cap ≤ capped each n cap := by
  have hnumber := isNaN_of_nonneg hcap
  rw [capped]
  rcases mul_infinite heach hn with hnan | hinfinite
  · rw [smaller_of_nan hnan, le_iff hnumber hnumber]
  · have hproduct : (each * Float.ofNat n).isNaN = false := by
      change (each * Float.ofNat n).toModel.unpack.isNaN = false
      rw [hinfinite]
      rfl
    rw [le_iff hnumber (isNaN_smaller hnumber), signedBits_smaller hproduct hnumber, signedBits_infinite hinfinite]
    exact le_min (signedBits_le_infinite hnumber) le_rfl

theorem capped_le_capped {a : ℚ} (heach : Amount each.toModel.unpack a) (hnonneg : 0 ≤ each) (hcap : 0 ≤ cap)
    {m n : ℕ} (h : m ≤ n) : capped each m cap ≤ capped each n cap := by
  rcases amount_or_infinite (ofNat_nonneg n) with ⟨c, hc⟩ | hinfinite
  · obtain ⟨b, hb⟩ := hc.of_le (ofNat_nonneg m) (ofNat_le_ofNat h)
    apply smaller_le_smaller _ (isNaN_of_nonneg hcap)
    rw [le_iff (isNaN_of_nonneg (heach.mul_nonneg hb)) (isNaN_of_nonneg (heach.mul_nonneg hc))]
    apply (heach.mul hb).mono (heach.mul hc)
    exact mul_le_mul_of_nonneg_left (hb.le_of_le hc (ofNat_le_ofNat h)) heach.nonneg
  · exact le_trans (capped_le hcap m) (le_capped_of_infinite hnonneg hcap hinfinite)

end Capped

theorem ofSeverity_mem (w : Weights) (s : Severity) :
    w.ofSeverity s ∈ [w.highSeverity, w.mediumSeverity, w.lowSeverity] := by
  cases s <;> simp [ofSeverity]

theorem ofKind_mem (w : Weights) (k : IssueKind) : w.ofKind k ∈ [w.inputLoss, w.crossAccess, w.softWarning] := by
  cases k <;> simp [ofKind]

/-- No part of a score is below zero, and what is added for each item is finite. -/
structure Sound (w : Weights) : Prop where
  severity : ∀ s, 0 ≤ w.ofSeverity s
  kind : ∀ k, 0 ≤ w.ofKind k
  perDimension : 0 ≤ w.perDimension ∧ ∃ a, Amount w.perDimension.toModel.unpack a
  dimensionCap : 0 ≤ w.dimensionCap
  perFile : 0 ≤ w.perFile ∧ ∃ a, Amount w.perFile.toModel.unpack a
  fileCap : 0 ≤ w.fileCap

theorem amount_of_isSound {x : Float} (h : isSound x = true) : 0 ≤ x ∧ ∃ a, Amount x.toModel.unpack a := by
  have hnonneg := nonneg_of_isSound h
  rw [isSound, Bool.and_eq_true] at h
  exact ⟨hnonneg, amount_of_isFinite hnonneg h.1⟩

theorem sound_of_isSound {w : Weights} (h : ∀ e ∈ w.named, isSound e.2 = true) : w.Sound := by
  have hweight : ∀ e ∈ w.named, 0 ≤ e.2 ∧ ∃ a, Amount e.2.toModel.unpack a := fun e he => amount_of_isSound (h e he)
  simp only [named, List.forall_mem_cons] at hweight
  obtain ⟨hhigh, hmedium, hlow, hloss, haccess, hsoft, hdimension, hdimensions, hfile, hfiles, -⟩ := hweight
  constructor
  · intro s
    cases s with
    | high => exact hhigh.1
    | medium => exact hmedium.1
    | low => exact hlow.1
  · intro k
    cases k with
    | inputLoss => exact hloss.1
    | crossAccess => exact haccess.1
    | softWarning => exact hsoft.1
  · exact hdimension
  · exact hdimensions.1
  · exact hfile
  · exact hfiles.1

end Weights

namespace Issue

open Weights

variable {w : Weights}

theorem riskScore_le_maxScore (hw : w.Sound) (i : Issue) : i.riskScore w ≤ w.maxScore := by
  have hseverity : w.ofSeverity i.severity ≤ larger (larger w.highSeverity w.mediumSeverity) w.lowSeverity := by
    apply le_larger _ _ _ _ (w.ofSeverity_mem i.severity)
    · exact isNaN_of_nonneg (hw.severity .high)
    · exact isNaN_of_nonneg (hw.severity .medium)
    · exact isNaN_of_nonneg (hw.severity .low)
  have hkind : w.ofKind i.kind ≤ larger (larger w.inputLoss w.crossAccess) w.softWarning := by
    apply le_larger _ _ _ _ (w.ofKind_mem i.kind)
    · exact isNaN_of_nonneg (hw.kind .inputLoss)
    · exact isNaN_of_nonneg (hw.kind .crossAccess)
    · exact isNaN_of_nonneg (hw.kind .softWarning)
  have hdimensions := capped_nonneg hw.perDimension.1 hw.dimensionCap i.missing.length
  have hfiles := capped_nonneg hw.perFile.1 hw.fileCap i.files.length
  have htwo := add_nonneg (hw.severity i.severity) (hw.kind i.kind)
  apply add_le_add (add_nonneg htwo hdimensions) hfiles
  · apply add_le_add htwo hdimensions
    · exact add_le_add (hw.severity _) (hw.kind _) hseverity hkind
    · exact capped_le hw.dimensionCap _
  · exact capped_le hw.fileCap _

theorem riskScore_le_riskScore (hw : w.Sound) {i j : Issue} (hseverity : i.severity = j.severity)
    (hkind : i.kind = j.kind) (hmissing : i.missing.length ≤ j.missing.length)
    (hfiles : i.files.length ≤ j.files.length) : i.riskScore w ≤ j.riskScore w := by
  obtain ⟨hdimension, a, ha⟩ := hw.perDimension
  obtain ⟨hfile, b, hb⟩ := hw.perFile
  have hsame : w.ofSeverity i.severity + w.ofKind i.kind ≤ w.ofSeverity j.severity + w.ofKind j.kind := by
    have hnumber := isNaN_of_nonneg (add_nonneg (hw.severity i.severity) (hw.kind i.kind))
    rw [← hseverity, ← hkind, le_iff hnumber hnumber]
  have hdimensions := capped_nonneg hdimension hw.dimensionCap i.missing.length
  have htwo := add_nonneg (hw.severity i.severity) (hw.kind i.kind)
  apply add_le_add (add_nonneg htwo hdimensions) (capped_nonneg hfile hw.fileCap _)
  · exact add_le_add htwo hdimensions hsame (capped_le_capped ha hdimension hw.dimensionCap hmissing)
  · exact capped_le_capped hb hfile hw.fileCap hfiles

/-- The second issue scores no less than the first and is in no less urgent tier. -/
def Below (w : Weights) (i j : Issue) : Prop :=
  i.riskScore w ≤ j.riskScore w ∧
    (Tier.ofScore (j.riskScore w)).place ≤ (Tier.ofScore (i.riskScore w)).place

theorem below_of_more (hw : w.Sound) {i j : Issue} (hseverity : i.severity = j.severity) (hkind : i.kind = j.kind)
    (hmissing : i.missing.length ≤ j.missing.length) (hfiles : i.files.length ≤ j.files.length) : i.Below w j := by
  have hle := riskScore_le_riskScore hw hseverity hkind hmissing hfiles
  exact ⟨hle, Tier.place_ofScore_le hle⟩

/-- With accepted weights every score is a number from zero to the highest score, and one more dimension or file, at
whatever place, makes an issue no less urgent. -/
theorem riskScore_bounded (w : Weights) (hw : w.firstUnsound? = none) (i : Issue) :
    (i.riskScore w).isNaN = false ∧ 0 ≤ i.riskScore w ∧ i.riskScore w ≤ w.maxScore ∧
      (∀ dimension missing, missing.Perm (dimension :: i.missing) → i.Below w { i with missing }) ∧
      ∀ file files, files.Perm (file :: i.files) → i.Below w { i with files } := by
  have hnamed : ∀ e ∈ w.named, isSound e.2 = true := by
    intro e he
    simpa using List.find?_eq_none.1 hw e he
  have hsound := sound_of_isSound hnamed
  have hnonneg := riskScore_nonneg hnamed i
  refine ⟨isNaN_of_nonneg hnonneg, hnonneg, riskScore_le_maxScore hsound i, ?_, ?_⟩
  · intro dimension missing hperm
    apply below_of_more hsound
    · rfl
    · rfl
    · change i.missing.length ≤ missing.length
      rw [hperm.length_eq, List.length_cons]
      exact Nat.le_succ _
    · exact le_rfl
  · intro file files hperm
    apply below_of_more hsound
    · rfl
    · rfl
    · exact le_rfl
    · change i.files.length ≤ files.length
      rw [hperm.length_eq, List.length_cons]
      exact Nat.le_succ _

end Issue

/-- Two dimensions weigh infinitely much before they are cut to their cap, the sum of all parts is infinite, and a file
weighs as little as can be. -/
def extremeWeights : Weights :=
  { Weights.default with
    highSeverity := 1.7e308, perDimension := 1e308, dimensionCap := 1e307, perFile := 5e-324, fileCap := 1e308 }

theorem Issue.riskScore_bounded_extremeWeights :
    extremeWeights.firstUnsound? = none ∧
      (extremeWeights.perDimension * Float.ofNat 2).isFinite = false ∧ extremeWeights.maxScore.isFinite = false ∧
      ∀ i : Issue, 0 ≤ i.riskScore extremeWeights ∧ i.riskScore extremeWeights ≤ extremeWeights.maxScore ∧
        i.Below extremeWeights { i with missing := "channelId" :: i.missing } := by
  have haccepted : extremeWeights.firstUnsound? = none := by decide +kernel
  refine ⟨haccepted, by decide +kernel, by decide +kernel, fun i => ?_⟩
  obtain ⟨-, hnonneg, hmost, hdimension, -⟩ := Issue.riskScore_bounded extremeWeights haccepted i
  exact ⟨hnonneg, hmost, hdimension _ _ (List.Perm.refl _)⟩

end Granularity
