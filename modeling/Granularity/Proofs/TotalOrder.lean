import Granularity.Proofs.Comparison
import Granularity.Proofs.Ranking
import Granularity.Report.Basic
import Mathlib.Data.List.Forall2

/-!
Ranking by the total order of doubles, which compares their bits. The laws of ranking hold whatever bits the issues
have, so also where some are no numbers, of either sign. With the laws of scoring they let the steps that make the
list of a report be repeated and exchanged.
-/

namespace Granularity

/-- Whether the sign bit is set. -/
def isNegative (a : UInt64) : Bool := 0x8000000000000000 ≤ a

/-- The total order: what has the sign bit comes first, by falling bits, then the rest by rising bits. -/
def totalLe (a b : UInt64) : Bool :=
  match isNegative a, isNegative b with
  | true, true => b ≤ a
  | true, false => true
  | false, true => false
  | false, false => a ≤ b

/-- The place of bits in the total order. -/
def totalKey (a : UInt64) : Int :=
  if a.toNat < 2 ^ 63 then a.toNat else 2 ^ 63 - a.toNat - 1

theorem isNegative_eq (a : UInt64) : isNegative a = decide (2 ^ 63 ≤ a.toNat) := by
  rw [isNegative, decide_eq_decide, UInt64.le_iff_toNat_le]
  rfl

theorem totalLe_iff (a b : UInt64) : totalLe a b = true ↔ totalKey a ≤ totalKey b := by
  have ha := a.toNat_lt
  have hb := b.toNat_lt
  unfold totalLe totalKey
  rw [isNegative_eq, isNegative_eq]
  by_cases hna : 2 ^ 63 ≤ a.toNat <;> by_cases hnb : 2 ^ 63 ≤ b.toNat
  all_goals
    simp only [hna, hnb, decide_true, decide_false, decide_eq_true_eq, UInt64.le_iff_toNat_le, Bool.false_eq_true,
      true_iff, false_iff]
    omega

theorem totalKey_inj {a b : UInt64} : totalKey a = totalKey b ↔ a = b := by
  have ha := a.toNat_lt
  have hb := b.toNat_lt
  rw [← UInt64.toNat_inj]
  unfold totalKey
  split <;> split <;> omega

/-- By falling bits; issues of the same bits keep their order. -/
def rankBy (bits : Issue → UInt64) (l : List Issue) : List Issue :=
  l.mergeSort fun i j => totalLe (bits j) (bits i)

theorem rankBy_rankedBy (bits : Issue → UInt64) (l : List Issue) :
    RankedBy (fun i => totalKey (bits i)) l (rankBy bits l) :=
  mergeSort_rankedBy (fun i j => totalLe_iff (bits j) (bits i)) l

/-- The bits of a score. Arithmetic that comes to no number gives the negative quiet one. -/
def scoreBits (x : Float) : UInt64 :=
  if x.isNaN then 0xfff8000000000000 else x.toBits

section

open Binary64

theorem signedBits_ge {x : Float} (h : x.isNaN = false) : -(2047 * 2 ^ 52) ≤ signedBits x := by
  have hbits := hasBits_unpack h
  generalize x.toModel.unpack = u, signedBits x = k at hbits
  cases hbits with
  | zero s => omega
  | positive hm hheld =>
    have := hheld.heldBits_pos hm
    omega
  | negative hm hheld =>
    have := hheld.heldBits_lt
    omega
  | infinity => omega
  | negInfinity => omega

theorem totalKey_scoreBits {x : Float} (h : x.isNaN = false) : totalKey (scoreBits x) = orderKey x := by
  rw [orderKey_eq h, scoreBits, h, totalKey, signedBits]
  split <;> simp_all

theorem orderKey_le_iff (x y : Float) :
    orderKey x ≤ orderKey y ↔ totalLe (scoreBits x) (scoreBits y) = true := by
  have hnan {x : Float} (h : x.isNaN = true) :
      orderKey x = -2 ^ 64 ∧ totalKey (scoreBits x) = 2 ^ 63 - 0xfff8000000000000 - 1 := by
    rw [orderKey, scoreBits, h]
    exact ⟨rfl, rfl⟩
  -- a number has a key above that of no number, in either scale
  have hnumber {x : Float} (h : x.isNaN = false) :
      totalKey (scoreBits x) = orderKey x ∧ 2 ^ 63 - 0xfff8000000000000 - 1 < orderKey x := by
    refine ⟨totalKey_scoreBits h, ?_⟩
    have hge := signedBits_ge h
    rw [orderKey_eq h]
    split <;> omega
  rw [totalLe_iff]
  cases hx : x.isNaN with
  | true =>
    have := hnan hx
    cases hy : y.isNaN with
    | true =>
      have := hnan hy
      omega
    | false =>
      have := hnumber hy
      omega
  | false =>
    have := hnumber hx
    cases hy : y.isNaN with
    | true =>
      have := hnan hy
      omega
    | false =>
      have := hnumber hy
      omega

end

theorem rank_eq_rankBy : rank = rankBy fun i => scoreBits i.score := by
  funext l
  unfold rank rankBy
  congr 1
  funext i j
  rw [Bool.eq_iff_iff, decide_eq_true_iff]
  exact orderKey_le_iff j.score i.score

/-- What a ranking by bits keeps to: the same issues by falling bits, those of the same bits as they stood. Ranking
again changes nothing, and a filter may come before or after it. -/
structure RankLaws (bits : Issue → UInt64) (ranked : List Issue → List Issue) : Prop where
  perm : ∀ l, (ranked l).Perm l
  falling : ∀ l, (ranked l).Pairwise fun i j => totalLe (bits j) (bits i) = true
  stable : ∀ l b, (ranked l).filter (fun i => bits i = b) = l.filter fun i => bits i = b
  again : ∀ l, ranked (ranked l) = ranked l
  filtered : ∀ l severity, filterBySeverity severity (ranked l) = ranked (filterBySeverity severity l)

theorem rankBy_laws (bits : Issue → UInt64) : RankLaws bits (rankBy bits) where
  perm l := List.mergeSort_perm l _
  falling l := (rankBy_rankedBy bits l).falling.imp fun h => (totalLe_iff _ _).2 h
  stable l b := by
    have hstable := (rankBy_rankedBy bits l).stable (totalKey b)
    simpa only [totalKey_inj] using hstable
  again l := by
    have h := rankBy_rankedBy bits l
    -- a list that is ranked already ranks itself
    exact (rankBy_rankedBy bits (rankBy bits l)).unique ⟨h.falling, fun _ => rfl⟩
  filtered l severity := by
    cases severity with
    | none => rfl
    | some s => exact ((rankBy_rankedBy bits l).filter _).unique (rankBy_rankedBy bits _)

theorem rank_laws : RankLaws (fun i => scoreBits i.score) rank := by
  rw [rank_eq_rankBy]
  exact rankBy_laws _

/-- What scoring keeps to: nothing but the score changes, a filter may come before or after it, and scoring and ranking
a second time changes nothing, whatever bits the ranking goes by. -/
structure ScoreLaws (w : Weights) : Prop where
  score_only : ∀ l, List.Forall₂ (fun i j => j = { i with score := i.riskScore w }) l (scoreAll w l)
  filtered : ∀ l severity, filterBySeverity severity (scoreAll w l) = scoreAll w (filterBySeverity severity l)
  again : ∀ l, rank (scoreAll w (rank (scoreAll w l))) = rank (scoreAll w l)
  again_by : ∀ bits l, rankBy bits (scoreAll w (rankBy bits (scoreAll w l))) = rankBy bits (scoreAll w l)

theorem scoreAll_of_perm {w : Weights} {l l' : List Issue} (h : l'.Perm (scoreAll w l)) : scoreAll w l' = l' := by
  have hscored : ∀ i ∈ l', i.scored w = i := by
    intro i hi
    obtain ⟨j, -, rfl⟩ := List.mem_map.1 (h.mem_iff.1 hi)
    -- a score does not depend on the score before
    rfl
  rw [scoreAll, List.map_congr_left hscored, List.map_id']

theorem score_laws (w : Weights) : ScoreLaws w where
  score_only l := by
    rw [scoreAll, List.forall₂_map_right_iff]
    exact List.forall₂_same.2 fun _ _ => rfl
  filtered l severity := by
    cases severity with
    | none => rfl
    | some s =>
      simp only [filterBySeverity, scoreAll, List.filter_map]
      rfl
  again l := by rw [scoreAll_of_perm (rank_laws.perm _), rank_laws.again]
  again_by bits l := by rw [scoreAll_of_perm ((rankBy_laws bits).perm _), (rankBy_laws bits).again]

/-- The laws of ranking, for the bits of the scores and for any others, and those of scoring. -/
theorem ranking_lawful : RankLaws (fun i => scoreBits i.score) rank ∧
    (∀ bits, RankLaws bits (rankBy bits)) ∧ ∀ w, ScoreLaws w :=
  ⟨rank_laws, rankBy_laws, score_laws⟩

end Granularity
