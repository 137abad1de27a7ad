import Granularity.Proofs.Acceptance
import Granularity.Proofs.Bits
import Granularity.Proofs.Tiers

/-!
Ties in the ranking. Scores under accepted weights are numbers and not below zero. They fall along the
ranking, and issues with one score stand as they were found, but for the two zeros: a weight of `-0.0` is
accepted, and what scores `-0.0` is put behind what scores `0.0`, although the two are equal.
-/

namespace Granularity

open Float.Model Float.Model.UnpackedFloat Binary64

theorem nonneg_of_isSound {x : Float} (h : Weights.isSound x = true) : 0 ≤ x := by
  obtain ⟨hfinite, hless⟩ : x.isFinite = true ∧ ¬ x < 0 := by
    simpa only [Weights.isSound, Bool.and_eq_true, Bool.not_eq_true', decide_eq_false_iff_not] using h
  change x.toModel.unpack.isFinite = true at hfinite
  rw [← isNonneg_iff]
  cases hx : x.toModel.unpack with
  | notANumber =>
    rw [hx] at hfinite
    cases hfinite
  | infinity s =>
    rw [hx] at hfinite
    cases hfinite
  | zero s => trivial
  | finite s m e hm =>
    cases s with
    | positive => trivial
    | negative =>
      refine absurd ?_ hless
      change decide (x.toModel.unpack.lt (.zero .positive) = true) = true
      rw [hx]
      rfl

theorem capped_nonneg {each cap : Float} (heach : 0 ≤ each) (hcap : 0 ≤ cap) (n : Nat) :
    0 ≤ Weights.capped each n cap :=
  smaller_nonneg (mul_nonneg heach (ofNat_nonneg n)) hcap

theorem Issue.riskScore_nonneg {w : Weights} (hw : ∀ e ∈ w.named, Weights.isSound e.2 = true) (i : Issue) :
    0 ≤ i.riskScore w := by
  have hweight : ∀ e ∈ w.named, 0 ≤ e.2 := fun e he => nonneg_of_isSound (hw e he)
  simp only [Weights.named, List.forall_mem_cons] at hweight
  obtain ⟨hhigh, hmedium, hlow, hloss, haccess, hsoft, hdimension, hdimensions, hfile, hfiles, -⟩ := hweight
  have hseverity : 0 ≤ w.ofSeverity i.severity := by
    cases i.severity <;> assumption
  have hkind : 0 ≤ w.ofKind i.kind := by
    cases i.kind <;> assumption
  exact add_nonneg (add_nonneg (add_nonneg hseverity hkind) (capped_nonneg hdimension hdimensions _))
    (capped_nonneg hfile hfiles _)

theorem eq_of_orderKey_eq {x y : Float} (hx : x.isNaN = false) (hy : y.isNaN = false)
    (h : orderKey x = orderKey y) : x = y := by
  apply eq_of_bits
  rw [orderKey_eq hx, orderKey_eq hy] at h
  simp only [signedBits] at h
  split at h <;> split at h <;> omega

theorem beq_nan {x y : Float} (hy : y.isNaN = true) : (x == y) = false := by
  change x.toModel.unpack.beq y.toModel.unpack = false
  change y.toModel.unpack.isNaN = true at hy
  cases hu : y.toModel.unpack with
  | notANumber => cases x.toModel.unpack <;> rfl
  | _ =>
    rw [hu] at hy
    cases hy

theorem filter_two_keys {α : Type} {key : α → Int} {r : List α} (h : r.Pairwise fun a b => key b ≤ key a)
    {j k : Int} (hjk : k < j) : r.filter (fun a => key a = j ∨ key a = k) =
      r.filter (fun a => key a = j) ++ r.filter fun a => key a = k := by
  induction r with
  | nil => rfl
  | cons a r ih =>
    obtain ⟨ha, hr⟩ := List.pairwise_cons.1 h
    have ih := ih hr
    by_cases hj : key a = j
    · have hk : key a ≠ k := by omega
      simpa [hj, hk, hjk.ne'] using ih
    · by_cases hk : key a = k
      · -- behind the smaller key there is no larger one
        have hnone : r.filter (fun a => key a = j) = [] := by
          rw [List.filter_eq_nil_iff]
          intro b hb
          have := ha b hb
          simp only [decide_eq_true_eq]
          omega
        rw [hnone] at ih
        simpa [hk, hjk.ne, hnone] using ih
      · simpa [hj, hk] using ih

/-- Ranked by the value of the scores, with ties as they were found; but `0.0` comes before `-0.0`. -/
structure KeepsTies (found ranked : List Issue) : Prop where
  falling : ranked.Pairwise fun i j => j.score ≤ i.score
  ties : ∀ x : Float, (x == 0) = false → ranked.filter (·.score == x) = found.filter (·.score == x)
  zeros : ranked.filter (·.score == 0) = found.filter (·.score = 0) ++ found.filter (·.score = -0.0)

theorem rank_keepsTies {l : List Issue} (h : ∀ i ∈ l, i.score.isNaN = false) : KeepsTies l (rank l) := by
  have hrank := rank_rankedBy l
  have hnumber : ∀ i ∈ rank l, i.score.isNaN = false := fun i hi => h i (hrank.mem_iff.1 hi)
  have hnan₀ : (0 : Float).isNaN = false := by decide +kernel
  have hbits₀ : signedBits 0 = 0 := by decide +kernel
  constructor
  · refine hrank.falling.imp_of_mem fun hi hj hle => ?_
    rw [le_iff (hnumber _ hj) (hnumber _ hi)]
    exact signedBits_le_of_orderKey_le (hnumber _ hj) (hnumber _ hi) hle
  · intro x hx
    cases hnan : x.isNaN with
    | true => simp only [beq_nan hnan, List.filter_false]
    | false =>
      have hne : signedBits x ≠ 0 := by
        intro hzero
        have hbeq : (x == 0) = true := (beq_iff hnan hnan₀).2 (hzero.trans hbits₀.symm)
        rw [hbeq] at hx
        cases hx
      have hkey (m : List Issue) (hm : ∀ i ∈ m, i.score.isNaN = false) :
          m.filter (·.score == x) = m.filter fun i => orderKey i.score = orderKey x := by
        apply List.filter_congr
        intro i hi
        rw [Bool.eq_iff_iff, beq_iff (hm i hi) hnan, decide_eq_true_eq, orderKey_eq_iff (hm i hi) hnan hne]
      rw [hkey _ hnumber, hkey _ h, hrank.stable]
  · have hzero (i : Issue) (hi : i.score.isNaN = false) :
        (i.score == 0) = decide (orderKey i.score = 0 ∨ orderKey i.score = -1) := by
      rw [Bool.eq_iff_iff, beq_iff hi hnan₀, decide_eq_true_eq, hbits₀, orderKey_eq hi]
      simp only [signedBits]
      split <;> omega
    have hkey {x : Float} (hx : x.isNaN = false) {k : Int} (hk : orderKey x = k) :
        l.filter (fun i => orderKey i.score = k) = l.filter (·.score = x) := by
      apply List.filter_congr
      intro i hi
      rw [decide_eq_decide, ← hk]
      exact ⟨eq_of_orderKey_eq (h i hi) hx, congrArg orderKey⟩
    rw [List.filter_congr fun i hi => hzero i (hnumber i hi), filter_two_keys hrank.falling (by omega), hrank.stable,
      hrank.stable, hkey hnan₀ (by decide +kernel), hkey (x := -0.0) (by decide +kernel) (by decide +kernel)]

theorem Issue.FitsKind.riskScore_of_finding {i : Issue} (h : i.FitsKind) {f : Finding} (hf : i.finding = f)
    (w : Weights) : i.riskScore w = f.kind.score w f.missing.length := by
  subst hf
  exact h.riskScore_eq w

theorem rank_pair {i j : Issue} (h : orderKey i.score < orderKey j.score) : rank [i, j] = [j, i] := by
  refine (rank_rankedBy [i, j]).unique ⟨by simpa using h.le, fun k => ?_⟩
  by_cases hi : orderKey i.score = k
  · have hj : orderKey j.score ≠ k := by omega
    simp [hi, hj]
  · simp [hi, List.filter_cons]

namespace Analysis

theorem run_keepsTies (t : FileTree) (root : Path) (hr : t.pathExists root = true) (s : Settings)
    (hs : s.validate = .ok s) :
    ∃ a, run t root s = .ok a ∧
      KeepsTies (scoreAll s.weights (Detector.run (Detector.all s.conventions) a.results.models)) a.results.issues := by
  obtain ⟨a, hrun, hresults⟩ := run_ok s hr
  refine ⟨a, hrun, ?_⟩
  rw [hresults, Stages.results]
  apply rank_keepsTies
  intro i hi
  obtain ⟨j, -, rfl⟩ := List.mem_map.1 hi
  exact isNaN_of_nonneg (j.riskScore_nonneg (Settings.accepted_of_validate hs).weights)

/-- All that a record adds to the score of an issue is the negative zero. -/
def signedZeros : Settings :=
  { Settings.default with
    weights := { Weights.default with
      highSeverity := -0.0, mediumSeverity := 0, inputLoss := -0.0, crossAccess := 0, perDimension := -0.0,
      perFile := -0.0 } }

theorem holds_signedZeros (d : ContainerSource) : Holds (pairTree d) ⟨"."⟩ signedZeros d :=
  have h := holds_pairTree d
  ⟨h.found, h.record, h.container, h.validations⟩

theorem run_keepsTies_signedZeros :
    ((pairTree storeSource).pathExists ⟨"."⟩ = true ∧ signedZeros.validate = .ok signedZeros) ∧
      ∃ a, run (pairTree storeSource) ⟨"."⟩ signedZeros = .ok a ∧
        KeepsTies (scoreAll signedZeros.weights (Detector.run (Detector.all .default) a.results.models))
          a.results.issues :=
  have hfound := (holds_signedZeros storeSource).found
  ⟨⟨hfound, rfl⟩, run_keepsTies _ _ hfound signedZeros rfl⟩

/-- Two issues of equal scores change places. -/
theorem run_reverses_zeros :
    signedZeros.validate = .ok signedZeros ∧
      ∃ a i j, run (pairTree storeSource) ⟨"."⟩ signedZeros = .ok a ∧
        scoreAll signedZeros.weights (Detector.run (Detector.all .default) a.results.models) = [i, j] ∧
        (i.score == j.score) = true ∧ i.kind = .inputLoss ∧ j.kind = .crossAccess ∧ a.results.issues = [j, i] := by
  have hholds := holds_signedZeros storeSource
  obtain ⟨a, hrun, hresults⟩ := run_ok signedZeros hholds.found
  have hmodels : a.results.models = (runStages (pairTree storeSource) ⟨"."⟩ signedZeros).models := by
    rw [hresults]
    rfl
  have hfits := run_fitsKind .default a.results.models
  have hfindings := hholds.findings_storeSource rfl
  rw [← hmodels] at hfindings
  obtain ⟨i, rest, hdetected, hi, hrest⟩ := List.map_eq_cons_iff.1 hfindings
  obtain ⟨j, rfl, hj⟩ := List.map_eq_singleton_iff.1 hrest
  change Detector.run (Detector.all .default) a.results.models = [i, j] at hdetected
  have hloss := (hfits i (by simp [hdetected])).riskScore_of_finding hi signedZeros.weights
  have haccess := (hfits j (by simp [hdetected])).riskScore_of_finding hj signedZeros.weights
  have hlower : orderKey (i.riskScore signedZeros.weights) < orderKey (j.riskScore signedZeros.weights) := by
    rw [hloss, haccess]
    decide +kernel
  have hequal : (i.riskScore signedZeros.weights == j.riskScore signedZeros.weights) = true := by
    rw [hloss, haccess]
    decide +kernel
  refine ⟨rfl, a, i.scored signedZeros.weights, j.scored signedZeros.weights, hrun, ?_, hequal,
    congrArg Finding.kind hi, congrArg Finding.kind hj, ?_⟩
  · rw [hdetected]
    rfl
  · have hissues : a.results.issues =
        rank (scoreAll signedZeros.weights (Detector.run (Detector.all .default) a.results.models)) := by
      rw [hresults]
      rfl
    rw [hissues, hdetected]
    exact rank_pair hlower

end Analysis

end Granularity
