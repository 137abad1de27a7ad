import Granularity.Decimal.Binary
import Granularity.Proofs.Comparison
import Mathlib.Algebra.Order.Field.Power
import Mathlib.Algebra.Order.Field.Rat
import Mathlib.Data.Nat.Cast.Order.Field
import Mathlib.Tactic.Linarith
import Mathlib.Tactic.Ring

/-!
Rounding to the nearest double. A mantissa with a round bit and a sticky bit stands for a fraction that is known up
to what rounding needs, so that rounding it is rounding the fraction. Every number between the midpoints around a
double is rounded to that double.
-/

namespace Granularity

open Float.Model Float.Model.UnpackedFloat

namespace Decimal

theorem roundDiv_eq {n d m : ℕ} (hlow : 2 * (m * d) ≤ 2 * n + d) (hhigh : 2 * n ≤ 2 * (m * d) + d)
    (hodd : m % 2 = 1 → 2 * (m * d) < 2 * n + d ∧ 2 * n < 2 * (m * d) + d) (hd : 0 < d) : roundDiv n d = m := by
  have hsplit : d * (n / d) + n % d = n := Nat.div_add_mod n d
  have hrest : n % d < d := Nat.mod_lt n hd
  unfold roundDiv
  generalize n / d = q at *
  generalize n % d = r at *
  -- only the quotient itself and the number above it are so near
  have hm : m = q ∨ m = q + 1 := by
    have hge : q ≤ m := by
      by_contra hlt
      have := Nat.mul_le_mul_right d (show m + 1 ≤ q by omega)
      nlinarith
    have hle : m ≤ q + 1 := by
      by_contra hgt
      have := Nat.mul_le_mul_right d (show q + 2 ≤ m by omega)
      nlinarith
    omega
  have hcomm : q * d = d * q := Nat.mul_comm q d
  rcases hm with rfl | rfl
  · rw [if_neg]
    simp only [Bool.or_eq_true, Bool.and_eq_true, decide_eq_true_eq, beq_iff_eq]
    omega
  · have hsucc : (q + 1) * d = d * q + d := by rw [Nat.add_mul, hcomm, Nat.one_mul]
    rw [if_pos]
    simp only [Bool.or_eq_true, Bool.and_eq_true, decide_eq_true_eq, beq_iff_eq]
    omega

theorem roundDiv_near (n : ℕ) {d : ℕ} (hd : 0 < d) :
    2 * (roundDiv n d * d) ≤ 2 * n + d ∧ 2 * n ≤ 2 * (roundDiv n d * d) + d := by
  have hsplit : d * (n / d) + n % d = n := Nat.div_add_mod n d
  have hrest : n % d < d := Nat.mod_lt n hd
  have hcomm : n / d * d = d * (n / d) := Nat.mul_comm _ d
  have hsucc : (n / d + 1) * d = d * (n / d) + d := by rw [Nat.add_mul, hcomm, Nat.one_mul]
  unfold roundDiv
  simp only [Bool.or_eq_true, Bool.and_eq_true, decide_eq_true_eq, beq_iff_eq]
  split <;> omega

end Decimal

open Decimal

namespace Binary64

/-- The fraction `n / d`, cut off behind its whole part, with what rounding has to know of the rest. -/
structure Describes (em : ExtendedMantissa) (n d : ℕ) : Prop where
  mantissa : em.mantissa = n / d
  roundBit : em.roundBit = decide (d ≤ 2 * (n % d))
  stickyBit : em.stickyBit = decide (2 * (n % d) % d ≠ 0)

theorem Describes.shiftRightOne {em : ExtendedMantissa} {n d : ℕ} (hd : 0 < d) (h : Describes em n d) :
    Describes em.shiftRightOne n (d * 2) := by
  have hrest : n % d < d := Nat.mod_lt n hd
  have hmod : n % (d * 2) = n % d + d * (n / d % 2) := Nat.mod_mul
  have hbit := Nat.mod_two_eq_zero_or_one (n / d)
  constructor
  · change em.mantissa / 2 = _
    rw [h.mantissa, Nat.div_div_eq_div_mul]
  · change (em.mantissa % 2 != 0) = _
    rw [h.mantissa, hmod, Bool.eq_iff_iff, bne_iff_ne, decide_eq_true_eq]
    rcases hbit with hbit | hbit <;> rw [hbit] <;> omega
  · change (em.roundBit || em.stickyBit) = _
    rw [h.roundBit, h.stickyBit, hmod, Bool.eq_iff_iff, Bool.or_eq_true, decide_eq_true_eq, decide_eq_true_eq,
      decide_eq_true_eq]
    have htwice : 2 * (n % d + d * (n / d % 2)) % (d * 2) = 2 * (n % d) := by
      rw [show 2 * (n % d + d * (n / d % 2)) = 2 * (n % d) + d * 2 * (n / d % 2) by ring, Nat.add_mul_mod_self_left,
        Nat.mod_eq_of_lt (by omega)]
    rw [htwice]
    constructor
    · rintro (hround | hsticky)
      · omega
      · rintro hzero
        rw [hzero, Nat.zero_mod] at hsticky
        exact hsticky rfl
    · intro hne
      by_cases hround : d ≤ 2 * (n % d)
      · exact .inl hround
      · right
        rwa [Nat.mod_eq_of_lt (by omega)]

theorem Describes.shiftRight {em : ExtendedMantissa} {n d : ℕ} (hd : 0 < d) (h : Describes em n d) (k : ℕ) :
    Describes (em >>> k) n (d * 2 ^ k) := by
  change Describes (Nat.repeat ExtendedMantissa.shiftRightOne k em) n _
  induction k with
  | zero => simpa [Nat.repeat] using h
  | succ k ih =>
    rw [Nat.repeat, Nat.pow_succ, ← Nat.mul_assoc]
    exact ih.shiftRightOne (Nat.mul_pos hd (Nat.two_pow_pos k))

theorem Describes.roundedMantissa {em : ExtendedMantissa} {n d : ℕ} (hd : 0 < d) (h : Describes em n d) :
    em.roundedMantissa = roundDiv n d := by
  have hrest : n % d < d := Nat.mod_lt n hd
  have hmantissa := h.mantissa
  have hround := h.roundBit
  have hsticky := h.stickyBit
  obtain ⟨m, round, sticky⟩ := em
  simp only at hmantissa hround hsticky
  unfold roundDiv
  simp only [Bool.or_eq_true, Bool.and_eq_true, decide_eq_true_eq, beq_iff_eq, ← hmantissa]
  have hexact (hlow : 2 * (n % d) < d) : 2 * (n % d) % d = 2 * (n % d) := Nat.mod_eq_of_lt hlow
  have hover (hhigh : d ≤ 2 * (n % d)) : 2 * (n % d) % d = 2 * (n % d) - d := by
    rw [Nat.mod_eq_sub_mod hhigh, Nat.mod_eq_of_lt (by omega)]
  cases round with
  | false =>
    have hlow : 2 * (n % d) < d := by simpa using hround
    rw [if_neg (by omega)]
    cases sticky <;> rfl
  | true =>
    have hhigh : d ≤ 2 * (n % d) := by simpa using hround
    rw [hover hhigh] at hsticky
    cases sticky with
    | false =>
      have htie : 2 * (n % d) = d := by
        have : ¬ 2 * (n % d) - d ≠ 0 := by simpa using hsticky
        omega
      change m + m % 2 = _
      rcases Nat.mod_two_eq_zero_or_one m with hm | hm
      · rw [if_neg (by omega), hm, Nat.add_zero]
      · rw [if_pos (by omega), hm]
    | true =>
      have hmore : 2 * (n % d) - d ≠ 0 := by simpa using hsticky
      rw [if_pos (by omega)]
      rfl

theorem describes_exact (n : ℕ) : Describes (.ofMantissaAndAccuracy n .exact) n 1 := by
  constructor
  · exact (Nat.div_one n).symm
  · rw [Nat.mod_one]
    rfl
  · rw [Nat.mod_one]
    rfl

theorem describes_fraction (n : ℕ) {d : ℕ} (hd : 0 < d) :
    Describes (.ofMantissaAndAccuracy (n / d) (accuracyOfFraction (n % d) d)) n d := by
  have hrest : n % d < d := Nat.mod_lt n hd
  unfold accuracyOfFraction
  by_cases hzero : n % d = 0
  · rw [if_pos hzero]
    constructor
    · rfl
    · rw [hzero]
      simp [ExtendedMantissa.ofMantissaAndAccuracy, hd.ne']
    · rw [hzero]
      simp [ExtendedMantissa.ofMantissaAndAccuracy]
  · rw [if_neg hzero]
    rcases Nat.lt_trichotomy (2 * (n % d)) d with hlt | heq | hgt
    · rw [Nat.compare_eq_lt.2 hlt]
      constructor
      · rfl
      · simpa [ExtendedMantissa.ofMantissaAndAccuracy] using hlt
      · rw [Nat.mod_eq_of_lt hlt]
        simpa [ExtendedMantissa.ofMantissaAndAccuracy] using hzero
    · rw [Nat.compare_eq_eq.2 heq]
      constructor
      · rfl
      · simp [ExtendedMantissa.ofMantissaAndAccuracy, heq]
      · simp [ExtendedMantissa.ofMantissaAndAccuracy, heq]
    · rw [Nat.compare_eq_gt.2 hgt]
      constructor
      · rfl
      · simpa [ExtendedMantissa.ofMantissaAndAccuracy] using hgt.le
      · have hover : 2 * (n % d) % d = 2 * (n % d) - d := by
          rw [Nat.mod_eq_sub_mod hgt.le, Nat.mod_eq_of_lt (by omega)]
        rw [hover]
        have : 2 * (n % d) - d ≠ 0 := by omega
        simpa [ExtendedMantissa.ofMantissaAndAccuracy] using this

/-- How far the lower midpoint is, in units of the last place: a power of two has its lower neighbour at half the
distance, unless the exponent is the least. -/
def lowerHalf (m : ℕ) (e : ℤ) : ℚ := if m = 2 ^ 52 ∧ -1074 < e then 1 / 4 else 1 / 2

/-- A number that rounds to the double `m * 2 ^ e`: between the midpoints to its neighbours, and on one of them only
if the mantissa is even. -/
structure Nearest (m : ℕ) (e : ℤ) (v : ℚ) : Prop where
  low : (m - lowerHalf m e) * 2 ^ e ≤ v
  high : v ≤ (m + 1 / 2) * 2 ^ e
  inside : m % 2 = 1 → (m - lowerHalf m e) * 2 ^ e < v ∧ v < (m + 1 / 2) * 2 ^ e

theorem lowerHalf_le (m : ℕ) (e : ℤ) : lowerHalf m e ≤ 1 / 2 := by
  unfold lowerHalf
  split <;> norm_num

theorem lowerHalf_of_odd {m : ℕ} (hm : m % 2 = 1) (e : ℤ) : lowerHalf m e = 1 / 2 := by
  unfold lowerHalf
  rw [if_neg]
  rintro ⟨rfl, -⟩
  norm_num at hm

theorem two_zpow_pos (e : ℤ) : (0 : ℚ) < 2 ^ e := zpow_pos (by norm_num) e

theorem lt_of_two_zpow_lt {a b : ℤ} (h : (2 : ℚ) ^ a < 2 ^ b) : a < b :=
  (zpow_lt_zpow_iff_right₀ (by norm_num)).1 h

section

variable {m : ℕ} {e : ℤ} {v : ℚ}

theorem Nearest.half_le (h : Nearest m e v) : (m - 1 / 2) * 2 ^ e ≤ v := by
  have hhalf := lowerHalf_le m e
  have hpos := two_zpow_pos e
  nlinarith [h.low]

theorem Nearest.lt_pow (h : Nearest m e v) (hm : m < 2 ^ 53) : v < 2 ^ (53 + e) := by
  have hcast : (m : ℚ) + 1 ≤ 2 ^ 53 := by exact_mod_cast hm
  have hless : (m : ℚ) + 1 / 2 < 2 ^ (53 : ℤ) := by
    refine lt_of_lt_of_le ?_ hcast
    norm_num
  rw [zpow_add₀ (by norm_num)]
  exact h.high.trans_lt (mul_lt_mul_of_pos_right hless (two_zpow_pos e))

theorem Nearest.pow_lt (h : Nearest m e v) (hm : 2 ^ 52 ≤ m) : 2 ^ (51 + e) < v := by
  have hcast : (2 : ℚ) ^ 52 ≤ m := by exact_mod_cast hm
  have hless : (2 : ℚ) ^ (51 : ℤ) < m - 1 / 2 := by
    refine lt_of_lt_of_le ?_ (sub_le_sub_right hcast _)
    norm_num
  rw [zpow_add₀ (by norm_num)]
  exact (mul_lt_mul_of_pos_right hless (two_zpow_pos e)).trans_le h.half_le

/-- The exponent to which a fraction is shifted before it is rounded is that of the double it rounds to, or, just
below a power of two, the one before. -/
theorem Nearest.target_cases (h : Nearest m e v) (hheld : IsHeld m e) {n d : ℕ} {e₀ : ℤ} (hd : 0 < d)
    (hv : v = (n / d : ℚ) * 2 ^ e₀) (hshift : e₀ ≤ Format.binary64.targetExponent (totalExponent (n / d) e₀)) :
    Format.binary64.targetExponent (totalExponent (n / d) e₀) = e ∨
      Format.binary64.targetExponent (totalExponent (n / d) e₀) = e - 1 ∧ m = 2 ^ 52 ∧ -1074 < e ∧
        v < 2 ^ (52 + e) := by
  have hbits : Format.binary64.mantissaBits = 53 := rfl
  have hmin : Format.binary64.minExponent = -1074 := rfl
  have hleast := hheld.least
  have hpos := two_zpow_pos e₀
  have hfloor : ((n / d : ℕ) : ℚ) ≤ n / d := Nat.cast_div_le
  have hceil : (n / d : ℚ) < (n / d : ℕ) + 1 := by
    rw [div_lt_iff₀ (by exact_mod_cast hd)]
    exact_mod_cast Nat.lt_mul_of_div_lt (Nat.lt_succ_self (n / d)) hd
  rw [Format.targetExponent, totalExponent, hbits, hmin] at hshift ⊢
  by_cases hzero : n / d = 0
  · -- less than one unit, which happens only at the least exponent
    rw [hzero, Nat.log2_zero] at hshift ⊢
    left
    by_contra hne
    have hmore : e₀ ≤ -1074 := by omega
    have hnormal : 2 ^ 52 ≤ m := hheld.normal.resolve_left (by omega)
    have hsmall : v < 2 ^ e₀ := by
      rw [hv]
      rw [hzero] at hceil
      norm_num at hceil
      nlinarith
    have := lt_of_two_zpow_lt ((h.pow_lt hnormal).trans hsmall)
    omega
  · have hlow : (2 : ℚ) ^ (((n / d).log2 : ℤ) + e₀) ≤ v := by
      have hlog : (2 : ℚ) ^ (n / d).log2 ≤ (n / d : ℕ) := by exact_mod_cast Nat.log2_self_le hzero
      rw [zpow_add₀ (by norm_num), zpow_natCast, hv]
      exact mul_le_mul_of_nonneg_right (hlog.trans hfloor) hpos.le
    have hhigh : v < (2 : ℚ) ^ (((n / d).log2 : ℤ) + 1 + e₀) := by
      have hlog : ((n / d : ℕ) : ℚ) + 1 ≤ 2 ^ ((n / d).log2 + 1) := by exact_mod_cast Nat.lt_log2_self
      rw [zpow_add₀ (by norm_num), hv]
      norm_cast
      push_cast
      exact mul_lt_mul_of_pos_right (hceil.trans_le hlog) hpos
    have habove := lt_of_two_zpow_lt (hlow.trans_lt (h.lt_pow hheld.short))
    rcases hheld.normal with hsub | hnormal
    · left
      omega
    · have hbelow := lt_of_two_zpow_lt ((h.pow_lt hnormal).trans hhigh)
      by_cases htarget : max (((n / d).log2 : ℤ) + 1 + e₀ - (53 : ℕ)) (-1074) = e
      · exact .inl htarget
      · right
        have hless : v < 2 ^ (52 + e) := by
          refine hhigh.trans_le (zpow_le_zpow_right₀ (by norm_num) ?_)
          omega
        refine ⟨by omega, ?_, by omega, hless⟩
        -- what lies below the power of two and still rounds to a normal number rounds to the power
        rw [zpow_add₀ (by norm_num)] at hless
        have hcast : (m : ℚ) - 1 / 2 < 2 ^ 52 := lt_of_mul_lt_mul_right (h.half_le.trans_lt hless) (two_zpow_pos e).le
        have hmore : (m : ℚ) < 2 ^ 52 + 1 := by linarith
        have hlt : m < 2 ^ 52 + 1 := by exact_mod_cast hmore
        omega

theorem roundDiv_of_bounds {n d k : ℕ} {e₀ : ℤ} (hd : 0 < d) (he : e = e₀ + k)
    (hlow : (m - 1 / 2) * 2 ^ e ≤ (n / d : ℚ) * 2 ^ e₀) (hhigh : (n / d : ℚ) * 2 ^ e₀ ≤ (m + 1 / 2) * 2 ^ e)
    (hodd : m % 2 = 1 → (m - 1 / 2) * 2 ^ e < (n / d : ℚ) * 2 ^ e₀ ∧ (n / d : ℚ) * 2 ^ e₀ < (m + 1 / 2) * 2 ^ e) :
    roundDiv n (d * 2 ^ k) = m := by
  have hpos : (0 : ℚ) < 2 ^ e₀ := two_zpow_pos e₀
  have hd' : (0 : ℚ) < d := by exact_mod_cast hd
  have hsplit (x : ℚ) : x * 2 ^ e = x * 2 ^ k * 2 ^ e₀ := by
    rw [he, zpow_add₀ (by norm_num), zpow_natCast]
    ring
  simp only [hsplit, mul_le_mul_iff_left₀ hpos, mul_lt_mul_iff_left₀ hpos, le_div_iff₀ hd', div_le_iff₀ hd',
    lt_div_iff₀ hd', div_lt_iff₀ hd'] at hlow hhigh hodd
  apply roundDiv_eq
  · have : (2 : ℚ) * (m * (d * 2 ^ k)) ≤ 2 * n + d * 2 ^ k := by linarith
    exact_mod_cast this
  · have : (2 : ℚ) * n ≤ 2 * (m * (d * 2 ^ k)) + d * 2 ^ k := by linarith
    exact_mod_cast this
  · intro hm
    obtain ⟨hl, hh⟩ := hodd hm
    constructor
    · have : (2 : ℚ) * (m * (d * 2 ^ k)) < 2 * n + d * 2 ^ k := by linarith
      exact_mod_cast this
    · have : (2 : ℚ) * n < 2 * (m * (d * 2 ^ k)) + d * 2 ^ k := by linarith
      exact_mod_cast this
  · exact Nat.mul_pos hd (Nat.two_pow_pos k)

theorem shiftToExponent_eq (n : ℕ) {e₀ target : ℤ} (acc : Accuracy) (h : e₀ ≤ target) :
    shiftToExponent n e₀ acc target =
      (ExtendedMantissa.ofMantissaAndAccuracy n acc >>> (target - e₀).toNat, target) := by
  unfold shiftToExponent
  have hexponent : e₀ + (target - e₀).toNat = target := by omega
  simp only [hexponent]

theorem shiftToTargetExponent_short (hm : m ≠ 0) (hleast : -1074 ≤ e) (hshort : m < 2 ^ 53)
    (hnormal : e = -1074 ∨ 2 ^ 52 ≤ m) : shiftToTargetExponent .binary64 m e .exact = (⟨m, false, false⟩, e) := by
  have hbits : Format.binary64.mantissaBits = 53 := rfl
  have hmin : Format.binary64.minExponent = -1074 := rfl
  have htarget : Format.binary64.targetExponent (totalExponent m e) = e := by
    have hlog : m.log2 < 53 := (Nat.log2_lt hm).2 hshort
    rw [Format.targetExponent, totalExponent, hbits, hmin]
    rcases hnormal with hsub | hnormal
    · omega
    · have := (Nat.le_log2 hm).2 hnormal
      omega
  rw [shiftToTargetExponent, htarget, shiftToExponent_eq m _ (le_refl e), sub_self]
  rfl

theorem shiftToTargetExponent_carry (hleast : -1074 ≤ e) :
    shiftToTargetExponent .binary64 (2 ^ 53) e .exact = (⟨2 ^ 52, false, false⟩, e + 1) := by
  have htarget : Format.binary64.targetExponent (totalExponent (2 ^ 53) e) = e + 1 := by
    have hbits : Format.binary64.mantissaBits = 53 := rfl
    have hmin : Format.binary64.minExponent = -1074 := rfl
    rw [Format.targetExponent, totalExponent, hbits, hmin, Nat.log2_two_pow]
    omega
  have hone : (e + 1 - e).toNat = 1 := by omega
  rw [shiftToTargetExponent, htarget, shiftToExponent_eq _ _ (by omega), hone]
  rfl

theorem roundWithAccuracy_nearest (s : Sign) (hm : 0 < m) (hheld : IsHeld m e) {n d : ℕ} {e₀ : ℤ} {acc : Accuracy}
    (hd : 0 < d) (hacc : Describes (.ofMantissaAndAccuracy (n / d) acc) n d)
    (hshift : e₀ ≤ Format.binary64.targetExponent (totalExponent (n / d) e₀))
    (h : Nearest m e ((n / d : ℚ) * 2 ^ e₀)) :
    roundWithAccuracy .binary64 s (n / d) e₀ acc = .finite s m e hm := by
  obtain ⟨k, hk⟩ : ∃ k : ℕ, Format.binary64.targetExponent (totalExponent (n / d) e₀) = e₀ + k :=
    ⟨(Format.binary64.targetExponent (totalExponent (n / d) e₀) - e₀).toNat, by omega⟩
  have hcount : (Format.binary64.targetExponent (totalExponent (n / d) e₀) - e₀).toNat = k := by omega
  have hfirst : shiftToTargetExponent .binary64 (n / d) e₀ acc =
      (ExtendedMantissa.ofMantissaAndAccuracy (n / d) acc >>> k,
        Format.binary64.targetExponent (totalExponent (n / d) e₀)) := by
    rw [shiftToTargetExponent, shiftToExponent_eq (n / d) acc hshift, hcount]
  have hrounded := (hacc.shiftRight hd k).roundedMantissa (Nat.mul_pos hd (Nat.two_pow_pos k))
  rcases h.target_cases hheld hd rfl hshift with htarget | ⟨htarget, rfl, hleast, hless⟩
  · have hm' : roundDiv n (d * 2 ^ k) = m := by
      refine roundDiv_of_bounds hd (htarget.symm.trans hk) h.half_le h.high fun hodd => ?_
      have hinside := h.inside hodd
      rwa [lowerHalf_of_odd hodd e] at hinside
    rw [htarget] at hfirst
    have hsecond : shiftToTargetExponent .binary64
        (ExtendedMantissa.ofMantissaAndAccuracy (n / d) acc >>> k).roundedMantissa e .exact =
          (⟨m, false, false⟩, e) := by
      rw [hrounded, hm', shiftToTargetExponent_short hm.ne' hheld.least hheld.short hheld.normal]
    exact roundWithAccuracy_eq hfirst hsecond hm
  · -- the rounded mantissa has one bit more, which the second shift takes away
    have hm' : roundDiv n (d * 2 ^ k) = 2 ^ 53 := by
      have hhalf : (2 : ℚ) ^ e = 2 * 2 ^ (e - 1) := by
        rw [zpow_sub₀ (by norm_num), zpow_one, mul_div_cancel₀ _ (by norm_num)]
      have hlow := h.low
      have hpos := two_zpow_pos (e - 1)
      rw [lowerHalf, if_pos ⟨rfl, hleast⟩, hhalf] at hlow
      rw [zpow_add₀ (by norm_num), hhalf] at hless
      push_cast at hlow hless
      apply roundDiv_of_bounds (e := e - 1) hd (htarget.symm.trans hk)
      · push_cast
        nlinarith
      · push_cast
        nlinarith
      · intro hodd
        norm_num at hodd
    have hsecond : shiftToTargetExponent .binary64 (2 ^ 53) (e - 1) .exact = (⟨2 ^ 52, false, false⟩, e) := by
      rw [shiftToTargetExponent_carry (by omega), sub_add_cancel]
    rw [htarget] at hfirst
    rw [← hm', ← hrounded] at hsecond
    exact roundWithAccuracy_eq hfirst hsecond (by decide)

end

end Binary64

end Granularity
