import Granularity.Proofs.Bits
import Granularity.Proofs.Rounding
import Mathlib.Tactic.FieldSimp

/-!
Sums and products of doubles that are not below zero. Each is the exact result rounded to the nearest double, and of
two at one distance to the even one; what is too large becomes infinite. Rounding keeps the order, and so sums and
products rise with their operands.
-/

namespace Granularity

open Float.Model Float.Model.UnpackedFloat Decimal

namespace Decimal

theorem roundDiv_one (n : ℕ) : roundDiv n 1 = n := by
  simp [roundDiv, Nat.mod_one]

theorem roundDiv_tie {n d q : ℕ} (hd : 0 < d) (h : 2 * n = (2 * q + 1) * d) : roundDiv n d = q + q % 2 := by
  rw [Nat.add_mul, Nat.one_mul, Nat.mul_assoc] at h
  rcases Nat.mod_two_eq_zero_or_one q with hq | hq
  · rw [hq, Nat.add_zero]
    exact roundDiv_eq (by omega) (by omega) (by omega) hd
  · have hsucc : (q + 1) * d = q * d + d := by rw [Nat.add_mul, Nat.one_mul]
    rw [hq]
    exact roundDiv_eq (by omega) (by omega) (by omega) hd

theorem roundDiv_le {n d n' d' : ℕ} (hd : 0 < d) (hd' : 0 < d') (h : n * d' ≤ n' * d) :
    roundDiv n d ≤ roundDiv n' d' := by
  by_contra hless
  obtain ⟨q, hq⟩ : ∃ q, roundDiv n' d' = q := ⟨_, rfl⟩
  rw [hq] at hless
  have hlow : (2 * q + 1) * d ≤ 2 * n := by
    have hnear := (roundDiv_near n hd).1
    have hmore := Nat.mul_le_mul_right d (show q + 1 ≤ roundDiv n d by omega)
    nlinarith
  have hhigh : 2 * n' ≤ (2 * q + 1) * d' := by
    have hnear := (roundDiv_near n' hd').2
    rw [hq] at hnear
    nlinarith
  -- both fractions lie half way between two whole numbers, and are rounded alike
  have hchain : (2 * q + 1) * d * d' ≤ 2 * n * d' := Nat.mul_le_mul_right d' hlow
  have hchain' : 2 * n' * d ≤ (2 * q + 1) * d' * d := Nat.mul_le_mul_right d hhigh
  have htie : 2 * n = (2 * q + 1) * d := Nat.eq_of_mul_eq_mul_right hd' (by nlinarith)
  have htie' : 2 * n' = (2 * q + 1) * d' := Nat.eq_of_mul_eq_mul_right hd (by nlinarith)
  rw [roundDiv_tie hd htie] at hless
  rw [roundDiv_tie hd' htie'] at hq
  omega

end Decimal

namespace Binary64

section Rounded

variable {n n' : ℕ} {e e' : ℤ}

/-- The exponent of the last place of the double that `n * 2 ^ e` is rounded to, before a carry. -/
def lastPlace (n : ℕ) (e : ℤ) : ℤ := Format.binary64.targetExponent (totalExponent n e)

/-- How many units of the last place `n * 2 ^ e` is rounded to. -/
def units (n : ℕ) (e : ℤ) : ℕ := roundDiv n (2 ^ (lastPlace n e - e).toNat)

theorem lastPlace_eq (n : ℕ) (e : ℤ) : lastPlace n e = max (n.log2 + e - 52) (-1074) := by
  have hbits : Format.binary64.mantissaBits = 53 := rfl
  have hmin : Format.binary64.minExponent = -1074 := rfl
  rw [lastPlace, Format.targetExponent, totalExponent, hbits, hmin]
  omega

theorem units_le (he : e ≤ lastPlace n e) : units n e ≤ 2 ^ 53 := by
  have hlast := lastPlace_eq n e
  have hlog : n < 2 ^ 53 * 2 ^ (lastPlace n e - e).toNat := by
    rw [← Nat.pow_add]
    exact Nat.lt_log2_self.trans_le (Nat.pow_le_pow_right (by decide) (by omega))
  calc units n e ≤ roundDiv (2 ^ 53) 1 := roundDiv_le (Nat.two_pow_pos _) Nat.one_pos (by omega)
    _ = 2 ^ 53 := roundDiv_one _

theorem le_units (hn : 0 < n) (h : -1074 < lastPlace n e) (he : e ≤ lastPlace n e) : 2 ^ 52 ≤ units n e := by
  have hlast := lastPlace_eq n e
  have hlog : 2 ^ 52 * 2 ^ (lastPlace n e - e).toNat ≤ n := by
    rw [← Nat.pow_add]
    exact (Nat.pow_le_pow_right (by decide) (by omega)).trans (Nat.log2_self_le hn.ne')
  calc 2 ^ 52 = roundDiv (2 ^ 52) 1 := (roundDiv_one _).symm
    _ ≤ units n e := roundDiv_le Nat.one_pos (Nat.two_pow_pos _) (by omega)

theorem lastPlace_mono (hn : 0 < n) (h : (n : ℚ) * 2 ^ e ≤ n' * 2 ^ e') : lastPlace n e ≤ lastPlace n' e' := by
  have hlow : (2 : ℚ) ^ ((n.log2 : ℤ) + e) ≤ n * 2 ^ e := by
    have hlog : (2 : ℚ) ^ n.log2 ≤ n := by exact_mod_cast Nat.log2_self_le hn.ne'
    rw [zpow_add₀ (by norm_num), zpow_natCast]
    exact mul_le_mul_of_nonneg_right hlog (two_zpow_pos e).le
  have hhigh : (n' : ℚ) * 2 ^ e' < 2 ^ (((n'.log2 + 1 : ℕ) : ℤ) + e') := by
    have hlog : (n' : ℚ) < 2 ^ (n'.log2 + 1) := by exact_mod_cast Nat.lt_log2_self
    rw [zpow_add₀ (by norm_num), zpow_natCast]
    exact mul_lt_mul_of_pos_right hlog (two_zpow_pos e')
  have hless := lt_of_two_zpow_lt (hlow.trans_lt (h.trans_lt hhigh))
  rw [lastPlace_eq, lastPlace_eq]
  omega

theorem heldBits_units_mono (hn : 0 < n) (hn' : 0 < n') (he : e ≤ lastPlace n e) (he' : e' ≤ lastPlace n' e')
    (h : (n : ℚ) * 2 ^ e ≤ n' * 2 ^ e') :
    heldBits (units n e) (lastPlace n e) ≤ heldBits (units n' e') (lastPlace n' e') := by
  simp only [heldBits]
  rcases (lastPlace_mono hn h).eq_or_lt with hsame | hless
  · have hunits : units n e ≤ units n' e' := by
      apply roundDiv_le (Nat.two_pow_pos _) (Nat.two_pow_pos _)
      obtain ⟨k, hk⟩ : ∃ k : ℕ, lastPlace n e = e + k := ⟨(lastPlace n e - e).toNat, by omega⟩
      obtain ⟨k', hk'⟩ : ∃ k' : ℕ, lastPlace n' e' = e' + k' := ⟨(lastPlace n' e' - e').toNat, by omega⟩
      rw [show (lastPlace n e - e).toNat = k by omega, show (lastPlace n' e' - e').toNat = k' by omega]
      have hpow : (2 : ℚ) ^ e * 2 ^ k = 2 ^ e' * 2 ^ k' := by
        rw [← zpow_natCast, ← zpow_natCast, ← zpow_add₀ (by norm_num), ← zpow_add₀ (by norm_num), ← hk, ← hk', hsame]
      have hpos := two_zpow_pos e
      have hscaled : (n : ℚ) * 2 ^ k' * (2 ^ e * 2 ^ k) ≤ n' * 2 ^ k * (2 ^ e * 2 ^ k) := by
        calc (n : ℚ) * 2 ^ k' * (2 ^ e * 2 ^ k) = n * 2 ^ e * (2 ^ k * 2 ^ k') := by ring
          _ ≤ n' * 2 ^ e' * (2 ^ k * 2 ^ k') := mul_le_mul_of_nonneg_right h (by positivity)
          _ = n' * 2 ^ k * (2 ^ e' * 2 ^ k') := by ring
          _ = n' * 2 ^ k * (2 ^ e * 2 ^ k) := by rw [hpow]
      have hcast : (n : ℚ) * 2 ^ k' ≤ n' * 2 ^ k := le_of_mul_le_mul_right hscaled (by positivity)
      exact_mod_cast hcast
    omega
  · -- with a later last place there are at least half as many units as fit one place before
    have hmost := units_le he
    have hleast := lastPlace_eq n e
    have hnormal := le_units hn' (by omega) he'
    omega

/-- Rounding gives the units of the last place, up to a carry. -/
theorem roundWithAccuracy_units (hn : 0 < n) (he : e ≤ lastPlace n e) :
    (roundWithAccuracy .binary64 .positive n e .exact = .zero .positive ∧ heldBits (units n e) (lastPlace n e) = 0) ∨
      ∃ m d hm, roundWithAccuracy .binary64 .positive n e .exact = .finite .positive m d hm ∧ -1074 ≤ d ∧
        m < 2 ^ 53 ∧ (d = -1074 ∨ 2 ^ 52 ≤ m) ∧ heldBits m d = heldBits (units n e) (lastPlace n e) := by
  have hlast := lastPlace_eq n e
  obtain ⟨em, hem⟩ : ∃ em, ExtendedMantissa.ofMantissaAndAccuracy n .exact >>> (lastPlace n e - e).toNat = em :=
    ⟨_, rfl⟩
  have hfirst : shiftToTargetExponent .binary64 n e .exact = (em, lastPlace n e) := by
    rw [← hem]
    exact shiftToExponent_eq n .exact he
  have hrounded : em.roundedMantissa = units n e := by
    have hdescribes := (describes_exact n).shiftRight Nat.one_pos (lastPlace n e - e).toNat
    rw [← hem, hdescribes.roundedMantissa (Nat.mul_pos Nat.one_pos (Nat.two_pow_pos _)), Nat.one_mul, units]
  have hmost := units_le he
  have hnormal : lastPlace n e = -1074 ∨ 2 ^ 52 ≤ units n e := by
    by_cases hleast : lastPlace n e = -1074
    · exact .inl hleast
    · exact .inr (le_units hn (by omega) he)
  by_cases hzero : units n e = 0
  · left
    have hleast : lastPlace n e = -1074 := by omega
    refine ⟨?_, by simp [heldBits, hzero, hleast]⟩
    rw [roundWithAccuracy, hfirst]
    dsimp only
    rw [hrounded, hzero, hleast]
    rfl
  · right
    rcases hmost.lt_or_eq with hshort | hcarry
    · refine ⟨units n e, lastPlace n e, Nat.pos_of_ne_zero hzero, ?_, by omega, hshort, hnormal, rfl⟩
      have hsecond := shiftToTargetExponent_short hzero (by omega) hshort hnormal
      rw [← hrounded] at hsecond
      have hpos : 0 < em.roundedMantissa := hrounded ▸ Nat.pos_of_ne_zero hzero
      exact (roundWithAccuracy_eq hfirst hsecond hpos).trans (finite_congr rfl hrounded rfl)
    · refine ⟨2 ^ 52, lastPlace n e + 1, by decide, ?_, by omega, by decide, .inr le_rfl, ?_⟩
      · have hsecond := shiftToTargetExponent_carry (e := lastPlace n e) (by omega)
        rw [← hcarry, ← hrounded] at hsecond
        exact roundWithAccuracy_eq hfirst hsecond (by decide)
      · rw [hcarry]
        simp only [heldBits]
        push_cast
        ring

theorem hasBits_rounded (hn : 0 < n) (he : e ≤ lastPlace n e) :
    HasBits (Float.Model.pack (roundWithAccuracy .binary64 .positive n e .exact)).unpack
      (min (heldBits (units n e) (lastPlace n e)) (2047 * 2 ^ 52)) := by
  rcases roundWithAccuracy_units hn he with ⟨hround, hbits⟩ | ⟨m, d, hm, hround, hleast, hshort, hnormal, hbits⟩
  · rw [hround, hbits]
    exact .zero .positive
  · rw [hround, ← hbits]
    rcases Int.lt_or_le 971 d with hlarge | hsmall
    · have hover : 2047 * 2 ^ 52 ≤ heldBits m d := by
        simp only [heldBits]
        omega
      rw [unpack_pack_large hm (by omega), min_eq_right hover]
      exact .infinity
    · have hheld : IsHeld m d := ⟨hleast, hshort, hnormal, hsmall⟩
      rw [unpack_pack_held hm hheld, min_eq_left hheld.heldBits_lt.le]
      exact .positive hm hheld

/-- The bits of the double that a number not below zero is rounded to. -/
inductive Rounds : ℚ → ℤ → Prop where
  | zero : Rounds 0 0
  | positive {n : ℕ} {e : ℤ} (hn : 0 < n) (he : e ≤ lastPlace n e) :
      Rounds (n * 2 ^ e) (min (heldBits (units n e) (lastPlace n e)) (2047 * 2 ^ 52))

theorem Rounds.mono {v w : ℚ} {j k : ℤ} (hv : Rounds v j) (hw : Rounds w k) (h : v ≤ w) : j ≤ k := by
  have hpos {n : ℕ} (hn : 0 < n) (e : ℤ) : (0 : ℚ) < n * 2 ^ e :=
    mul_pos (by exact_mod_cast hn) (two_zpow_pos e)
  cases hv with
  | zero =>
    cases hw with
    | zero => exact le_rfl
    | @positive n e hn he =>
      have hlast := lastPlace_eq n e
      apply le_min
      · simp only [heldBits]
        omega
      · decide
  | positive hn he =>
    cases hw with
    | zero => exact absurd h (hpos hn _).not_ge
    | positive hn' he' => exact min_le_min_right _ (heldBits_units_mono hn hn' he he' h)

theorem Rounds.unique {v : ℚ} {j k : ℤ} (hj : Rounds v j) (hk : Rounds v k) : j = k :=
  le_antisymm (hj.mono hk le_rfl) (hk.mono hj le_rfl)

end Rounded

theorem HasBits.unique {u : UnpackedFloat} {j k : ℤ} (hj : HasBits u j) (hk : HasBits u k) : j = k := by
  cases hj <;> cases hk <;> rfl

theorem HasBits.signedBits_eq {x : Float} {k : ℤ} (h : HasBits x.toModel.unpack k) : signedBits x = k := by
  have hnan : x.isNaN = false := by
    change x.toModel.unpack.isNaN = false
    generalize x.toModel.unpack = u at h
    cases h <;> rfl
  exact (hasBits_unpack hnan).unique h

section Exact

variable {m n : ℕ} {d e : ℤ}

theorem rounds_of_round {x : Float} (hn : 0 < n)
    (h : x.toModel = Float.Model.pack (UnpackedFloat.round .binary64 .positive n e)) :
    Rounds (n * 2 ^ e) (signedBits x) := by
  -- a short mantissa is filled up first, which changes neither the number nor its last place
  obtain ⟨k, hk⟩ : ∃ k : ℕ, (e - lastPlace n e).toNat = k := ⟨_, rfl⟩
  have hround : UnpackedFloat.round .binary64 .positive n e =
      roundWithAccuracy .binary64 .positive (n <<< k) (e - k) .exact := by
    rw [← hk]
    rfl
  have hvalue : (n : ℚ) * 2 ^ e = (n <<< k : ℕ) * 2 ^ (e - k) := by
    rw [zpow_sub₀ (by norm_num), zpow_natCast, Nat.shiftLeft_eq]
    push_cast
    field_simp
  have hfull : e - k ≤ lastPlace (n <<< k) (e - k) := by
    have hlast := lastPlace_eq n e
    rw [lastPlace_eq, log2_shiftLeft hn.ne']
    omega
  have hpos : 0 < n <<< k := by
    rw [Nat.shiftLeft_eq]
    exact Nat.mul_pos hn (Nat.two_pow_pos k)
  have hbits : HasBits x.toModel.unpack _ := h ▸ hround ▸ hasBits_rounded hpos hfull
  rw [hvalue, hbits.signedBits_eq]
  exact .positive hpos hfull

theorem IsHeld.lastPlace_eq (hm : 0 < m) (h : IsHeld m e) : lastPlace m e = e := by
  have hleast := h.least
  have hlog : m.log2 < 53 := (Nat.log2_lt hm.ne').2 h.short
  rw [Binary64.lastPlace_eq]
  rcases h.normal with hsub | hnormal
  · omega
  · have := (Nat.le_log2 hm.ne').2 hnormal
    omega

theorem IsHeld.rounds (hm : 0 < m) (h : IsHeld m e) : Rounds (m * 2 ^ e) (heldBits m e) := by
  have hlast := h.lastPlace_eq hm
  have hrounds := Rounds.positive hm hlast.ge
  rw [units, hlast, sub_self, Int.toNat_zero, Nat.pow_zero, roundDiv_one, min_eq_left h.heldBits_lt.le] at hrounds
  exact hrounds

theorem IsHeld.mul_le_mul (hm : IsHeld m d) (hn : IsHeld n e) (h : heldBits m d ≤ heldBits n e) :
    (m : ℚ) * 2 ^ d ≤ n * 2 ^ e := by
  have hm₁ := hm.short
  have hm₂ := hm.normal
  have hm₃ := hm.least
  have hn₁ := hn.short
  have hn₂ := hn.normal
  have hn₃ := hn.least
  simp only [heldBits] at h
  rcases Int.lt_trichotomy d e with hless | rfl | hmore
  · have hfull : 2 ^ 52 ≤ n := by omega
    have hshort : (m : ℚ) ≤ 2 ^ (53 : ℤ) := by exact_mod_cast hm₁.le
    have hnormal : (2 : ℚ) ^ (52 : ℤ) ≤ n := by exact_mod_cast hfull
    calc (m : ℚ) * 2 ^ d ≤ 2 ^ (53 : ℤ) * 2 ^ d := mul_le_mul_of_nonneg_right hshort (two_zpow_pos d).le
      _ = 2 ^ (53 + d) := (zpow_add₀ (by norm_num) _ _).symm
      _ ≤ 2 ^ (52 + e) := zpow_le_zpow_right₀ (by norm_num) (by omega)
      _ = 2 ^ (52 : ℤ) * 2 ^ e := zpow_add₀ (by norm_num) _ _
      _ ≤ n * 2 ^ e := mul_le_mul_of_nonneg_right hnormal (two_zpow_pos e).le
  · have hle : (m : ℚ) ≤ n := by exact_mod_cast (show m ≤ n by omega)
    exact mul_le_mul_of_nonneg_right hle (two_zpow_pos d).le
  · omega

end Exact

/-- A finite number that is not below zero. -/
inductive Amount : UnpackedFloat → ℚ → Prop where
  | zero (s : Sign) : Amount (.zero s) 0
  | positive {m : ℕ} {e : ℤ} (hm : 0 < m) (h : IsHeld m e) : Amount (.finite .positive m e hm) (m * 2 ^ e)

theorem Amount.nonneg {u : UnpackedFloat} {a : ℚ} (h : Amount u a) : 0 ≤ a := by
  cases h with
  | zero s => exact le_rfl
  | positive hm hheld => positivity

section Amounts

variable {x y : Float} {a b : ℚ}

theorem amount_or_infinite (h : 0 ≤ x) : (∃ a, Amount x.toModel.unpack a) ∨ x.toModel.unpack = .infinity .positive := by
  rcases (isNonneg_iff.2 h).cases with ⟨s, hu⟩ | ⟨m, e, hm, hu⟩ | hu
  · left
    rw [hu]
    exact ⟨0, .zero s⟩
  · left
    have hheld := (isHeld_unpack hu).1
    rw [hu]
    exact ⟨_, .positive hm hheld⟩
  · exact .inr hu

theorem amount_of_isFinite (h : 0 ≤ x) (hx : x.isFinite = true) : ∃ a, Amount x.toModel.unpack a := by
  refine (amount_or_infinite h).resolve_right fun hinfinite => ?_
  change x.toModel.unpack.isFinite = true at hx
  rw [hinfinite] at hx
  cases hx

theorem Amount.isFinite (h : Amount x.toModel.unpack a) : x.isFinite = true := by
  change x.toModel.unpack.isFinite = true
  generalize x.toModel.unpack = u at h
  cases h with
  | zero s => rfl
  | positive hm hheld => rfl

theorem Amount.rounds (h : Amount x.toModel.unpack a) : Rounds a (signedBits x) := by
  generalize hu : x.toModel.unpack = u at h
  cases h with
  | zero s =>
    have hbits : HasBits x.toModel.unpack 0 := hu ▸ .zero s
    rw [hbits.signedBits_eq]
    exact .zero
  | positive hm hheld =>
    rw [(isHeld_unpack hu).2]
    exact hheld.rounds hm

theorem Amount.le_of_le (hx : Amount x.toModel.unpack a) (hy : Amount y.toModel.unpack b) (h : x ≤ y) : a ≤ b := by
  obtain ⟨hnx, hny⟩ := not_isNaN_of_le h
  rw [le_iff hnx hny] at h
  generalize hu : x.toModel.unpack = u at hx
  cases hx with
  | zero s => exact hy.nonneg
  | positive hm hheld =>
    rw [(isHeld_unpack hu).2] at h
    generalize hv : y.toModel.unpack = v at hy
    cases hy with
    | zero s =>
      have hbits : HasBits y.toModel.unpack 0 := hv ▸ .zero s
      have hpos := hheld.heldBits_pos hm
      rw [hbits.signedBits_eq] at h
      exact absurd h hpos.not_ge
    | positive hn hheld' =>
      rw [(isHeld_unpack hv).2] at h
      exact hheld.mul_le_mul hheld' h

theorem Amount.unpack_pack {u : UnpackedFloat} (h : Amount u a) : (Float.Model.pack u).unpack = u := by
  cases h with
  | zero s => cases s <;> rfl
  | positive hm hheld => exact unpack_pack_held hm hheld

/-- A double that is packed from an amount is that amount. -/
theorem Amount.rounds_of_pack {u : UnpackedFloat} (h : Amount u a) (hx : x.toModel = Float.Model.pack u) :
    Rounds a (signedBits x) := by
  apply Amount.rounds
  rw [hx, h.unpack_pack]
  exact h

theorem Amount.add (hx : Amount x.toModel.unpack a) (hy : Amount y.toModel.unpack b) :
    Rounds (a + b) (signedBits (x + y)) := by
  have hsum : (x + y).toModel = Float.Model.pack (UnpackedFloat.add .binary64 x.toModel.unpack y.toModel.unpack) := rfl
  generalize x.toModel.unpack = u, y.toModel.unpack = v at hx hy hsum
  cases hx with
  | zero s =>
    rw [zero_add]
    cases hy with
    | zero s' => cases s <;> cases s' <;> exact (Amount.zero _).rounds_of_pack hsum
    | positive hn hheld => exact (Amount.positive hn hheld).rounds_of_pack hsum
  | @positive m d hm hheld =>
    cases hy with
    | zero s =>
      rw [add_zero]
      exact (Amount.positive hm hheld).rounds_of_pack hsum
    | @positive n e hn hheld' =>
      obtain ⟨j, hj⟩ : ∃ j : ℕ, d = min d e + j := ⟨(d - min d e).toNat, by omega⟩
      obtain ⟨k, hk⟩ : ∃ k : ℕ, e = min d e + k := ⟨(e - min d e).toNat, by omega⟩
      have hpos : 0 < m <<< j + n <<< k := by
        rw [Nat.shiftLeft_eq]
        exact Nat.add_pos_left (Nat.mul_pos hm (Nat.two_pow_pos j)) _
      have hround : (x + y).toModel =
          Float.Model.pack (UnpackedFloat.round .binary64 .positive (m <<< j + n <<< k) (min d e)) := by
        have hj' : (d - min d e).toNat = j := by omega
        have hk' : (e - min d e).toNat = k := by omega
        have hadd : UnpackedFloat.add .binary64 (.finite .positive m d hm) (.finite .positive n e hn) =
            UnpackedFloat.normalize .binary64 (m <<< j + n <<< k : ℕ) (min d e) .positive := by
          rw [← hj', ← hk']
          rfl
        rw [hsum, hadd, normalize_natCast hpos]
      have hvalue : (m : ℚ) * 2 ^ d + n * 2 ^ e = (m <<< j + n <<< k : ℕ) * 2 ^ min d e := by
        have hd : (2 : ℚ) ^ d = 2 ^ j * 2 ^ min d e := by
          conv_lhs => rw [hj, zpow_add₀ (by norm_num), zpow_natCast, mul_comm]
        have he : (2 : ℚ) ^ e = 2 ^ k * 2 ^ min d e := by
          conv_lhs => rw [hk, zpow_add₀ (by norm_num), zpow_natCast, mul_comm]
        rw [hd, he, Nat.shiftLeft_eq, Nat.shiftLeft_eq]
        push_cast
        ring
      rw [hvalue]
      exact rounds_of_round hpos hround

theorem Amount.mul (hx : Amount x.toModel.unpack a) (hy : Amount y.toModel.unpack b) :
    Rounds (a * b) (signedBits (x * y)) := by
  have hproduct : (x * y).toModel =
    Float.Model.pack (UnpackedFloat.mul .binary64 x.toModel.unpack y.toModel.unpack) := rfl
  generalize x.toModel.unpack = u, y.toModel.unpack = v at hx hy hproduct
  cases hx with
  | zero s =>
    rw [zero_mul]
    cases hy <;> exact (Amount.zero _).rounds_of_pack hproduct
  | @positive m d hm hheld =>
    cases hy with
    | zero s =>
      rw [mul_zero]
      exact (Amount.zero _).rounds_of_pack hproduct
    | @positive n e hn hheld' =>
      have hfull : d + e ≤ lastPlace (m * n) (d + e) := by
        have hlog : 52 ≤ (m * n).log2 ∨ d + e ≤ -1074 := by
          rcases hheld.normal with hsub | hnormal
          · rcases hheld'.normal with hsub' | hnormal
            · exact .inr (by omega)
            · exact .inl ((Nat.le_log2 (Nat.mul_pos hm hn).ne').2 (hnormal.trans (Nat.le_mul_of_pos_left n hm)))
          · exact .inl ((Nat.le_log2 (Nat.mul_pos hm hn).ne').2 (hnormal.trans (Nat.le_mul_of_pos_right m hn)))
        rw [lastPlace_eq]
        omega
      have hbits : HasBits (x * y).toModel.unpack _ :=
        hproduct ▸ hasBits_rounded (Nat.mul_pos hm hn) hfull
      have hvalue : (m : ℚ) * 2 ^ d * (n * 2 ^ e) = (m * n : ℕ) * 2 ^ (d + e) := by
        rw [zpow_add₀ (by norm_num)]
        push_cast
        ring
      rw [hvalue, hbits.signedBits_eq]
      exact .positive (Nat.mul_pos hm hn) hfull

theorem Amount.mul_nonneg (hx : Amount x.toModel.unpack a) (hy : Amount y.toModel.unpack b) : 0 ≤ x * y := by
  have hproduct : IsNonneg (UnpackedFloat.mul .binary64 x.toModel.unpack y.toModel.unpack) := by
    generalize x.toModel.unpack = u, y.toModel.unpack = v at hx hy
    cases hx with
    | zero s => cases hy <;> trivial
    | positive hm hheld =>
      cases hy with
      | zero s => trivial
      | positive hn hheld' => exact isNonneg_round ..
  exact isNonneg_iff.1 hproduct.unpack_pack

theorem signedBits_infinite (h : x.toModel.unpack = .infinity .positive) : signedBits x = 2047 * 2 ^ 52 := by
  apply HasBits.signedBits_eq
  rw [h]
  exact .infinity

theorem signedBits_le_infinite (h : x.isNaN = false) : signedBits x ≤ 2047 * 2 ^ 52 := by
  have hbits := hasBits_unpack h
  generalize x.toModel.unpack = u, signedBits x = k at hbits
  cases hbits with
  | zero s => decide
  | positive hm hheld => exact hheld.heldBits_lt.le
  | negative hm hheld =>
    have := hheld.heldBits_pos hm
    omega
  | infinity => exact le_rfl
  | negInfinity => decide

theorem Amount.lt_infinite (h : Amount x.toModel.unpack a) : signedBits x < 2047 * 2 ^ 52 := by
  generalize hu : x.toModel.unpack = u at h
  cases h with
  | zero s =>
    have hbits : HasBits x.toModel.unpack 0 := hu ▸ .zero s
    rw [hbits.signedBits_eq]
    decide
  | positive hm hheld =>
    rw [(isHeld_unpack hu).2]
    exact hheld.heldBits_lt

theorem Amount.of_le (hy : Amount y.toModel.unpack b) (hx : 0 ≤ x) (h : x ≤ y) : ∃ a, Amount x.toModel.unpack a := by
  refine (amount_or_infinite hx).resolve_right fun hinfinite => ?_
  obtain ⟨hnx, hny⟩ := not_isNaN_of_le h
  rw [le_iff hnx hny, signedBits_infinite hinfinite] at h
  exact absurd hy.lt_infinite h.not_gt

theorem add_infinite (hx : 0 ≤ x) (hy : 0 ≤ y)
    (h : x.toModel.unpack = .infinity .positive ∨ y.toModel.unpack = .infinity .positive) :
    (x + y).toModel.unpack = .infinity .positive := by
  have hsum : (x + y).toModel.unpack =
    (Float.Model.pack (UnpackedFloat.add .binary64 x.toModel.unpack y.toModel.unpack)).unpack := rfl
  rw [hsum]
  rcases h with h | h
  · rw [h]
    rcases (isNonneg_iff.2 hy).cases with ⟨s, hv⟩ | ⟨n, e, hn, hv⟩ | hv <;> rw [hv] <;> exact unpack_infinity .positive
  · rw [h]
    rcases (isNonneg_iff.2 hx).cases with ⟨s, hu⟩ | ⟨m, d, hm, hu⟩ | hu <;> rw [hu] <;> exact unpack_infinity .positive

theorem mul_infinite (hx : 0 ≤ x) (hy : y.toModel.unpack = .infinity .positive) :
    (x * y).isNaN = true ∨ (x * y).toModel.unpack = .infinity .positive := by
  have hproduct : (x * y).toModel.unpack =
    (Float.Model.pack (UnpackedFloat.mul .binary64 x.toModel.unpack y.toModel.unpack)).unpack := rfl
  rw [hy] at hproduct
  rcases (isNonneg_iff.2 hx).cases with ⟨s, hu⟩ | ⟨m, d, hm, hu⟩ | hu
  · left
    have hnone : UnpackedFloat.mul .binary64 (.zero s) (.infinity .positive) = .notANumber := rfl
    change (x * y).toModel.unpack.isNaN = true
    rw [hproduct, hu, hnone]
    rfl
  · right
    rw [hproduct, hu]
    exact unpack_infinity .positive
  · right
    rw [hproduct, hu]
    exact unpack_infinity .positive

theorem add_le_add {x' y' : Float} (hx : 0 ≤ x) (hy : 0 ≤ y) (hxx : x ≤ x') (hyy : y ≤ y') : x + y ≤ x' + y' := by
  have hx' : 0 ≤ x' := le_trans hx hxx
  have hy' : 0 ≤ y' := le_trans hy hyy
  have hnumber := isNaN_of_nonneg (add_nonneg hx hy)
  rw [le_iff hnumber (isNaN_of_nonneg (add_nonneg hx' hy'))]
  rcases amount_or_infinite hx' with ⟨a', ha'⟩ | hinfinite
  · rcases amount_or_infinite hy' with ⟨b', hb'⟩ | hinfinite
    · obtain ⟨a, ha⟩ := ha'.of_le hx hxx
      obtain ⟨b, hb⟩ := hb'.of_le hy hyy
      apply (ha.add hb).mono (ha'.add hb')
      have hab := ha.le_of_le ha' hxx
      have hab' := hb.le_of_le hb' hyy
      linarith
    · rw [signedBits_infinite (add_infinite hx' hy' (.inr hinfinite))]
      exact signedBits_le_infinite hnumber
  · rw [signedBits_infinite (add_infinite hx' hy' (.inl hinfinite))]
    exact signedBits_le_infinite hnumber

end Amounts

section Counts

theorem amount_one : Amount (Float.ofBits 0x3FF0000000000000).toModel.unpack 1 := by
  have hheld : IsHeld (2 ^ 52) (-52) := ⟨by decide, by decide, by decide, by decide⟩
  have hvalue : ((2 ^ 52 : ℕ) : ℚ) * 2 ^ (-52 : ℤ) = 1 := by norm_num
  rw [unpack_one, ← hvalue]
  exact .positive _ hheld

theorem signedBits_mul_one {x : Float} (h : 0 ≤ x) :
    signedBits (x * Float.ofBits 0x3FF0000000000000) = signedBits x := by
  rcases amount_or_infinite h with ⟨a, ha⟩ | hinfinite
  · have hproduct := ha.mul amount_one
    rw [mul_one] at hproduct
    exact hproduct.unique ha.rounds
  · rw [signedBits_infinite hinfinite]
    apply signedBits_infinite
    change (Float.Model.pack (UnpackedFloat.mul .binary64 x.toModel.unpack _)).unpack = _
    rw [hinfinite, unpack_one]
    rfl

theorem rounds_ofNat_short {n : ℕ} (hn : 0 < n) (hshort : n < 2 ^ 53) : Rounds n (signedBits (Float.ofNat n)) := by
  obtain ⟨x, hx⟩ : ∃ x : Float, x.toModel = Float.Model.pack (UnpackedFloat.ofNat .binary64 n) := ⟨.ofModel _, rfl⟩
  have hround := ofNat_eq_round hn
  have hnonneg : 0 ≤ x := by
    have hrounded : IsNonneg (UnpackedFloat.round .binary64 .positive n 0) := isNonneg_round ..
    rw [← isNonneg_iff, hx, hround]
    exact hrounded.unpack_pack
  -- the number is multiplied by one, which rounds it a second time
  have hproduct : Float.ofNat n = x * Float.ofBits 0x3FF0000000000000 := by
    have hmodel := toModel_ofNat_short hshort
    rw [← hx] at hmodel
    exact congrArg Float.ofModel hmodel
  have hrounds := rounds_of_round hn (hx.trans (congrArg Float.Model.pack hround))
  rw [zpow_zero, mul_one] at hrounds
  rw [hproduct, signedBits_mul_one hnonneg]
  exact hrounds

theorem rounds_ofNat_long {n : ℕ} (hlong : 2 ^ 53 ≤ n) : Rounds n (signedBits (Float.ofNat n)) := by
  have hlog := log2_shiftLeft (show n ≠ 0 by omega) 53
  have hfull : (-53 : ℤ) ≤ lastPlace (n <<< 53) (-53) := by
    rw [lastPlace_eq, hlog]
    omega
  have hpos : 0 < n <<< 53 := by
    rw [Nat.shiftLeft_eq]
    omega
  have hvalue : (n : ℚ) = (n <<< 53 : ℕ) * 2 ^ (-53 : ℤ) := by
    rw [Nat.shiftLeft_eq, zpow_neg]
    push_cast
    rw [mul_assoc, mul_inv_cancel₀ (by norm_num), mul_one]
  have hmodel := toModel_ofNat_long hlong
  rw [Nat.mul_one, add_zero] at hmodel
  have hbits := hasBits_rounded hpos hfull
  rw [← hmodel] at hbits
  rw [hbits.signedBits_eq, hvalue]
  exact .positive hpos hfull

theorem rounds_ofNat (n : ℕ) : Rounds n (signedBits (Float.ofNat n)) := by
  rcases Nat.lt_or_ge n (2 ^ 53) with hshort | hlong
  · rcases Nat.eq_zero_or_pos n with rfl | hn
    · have hzero : signedBits (Float.ofNat 0) = 0 := by decide +kernel
      rw [hzero, Nat.cast_zero]
      exact .zero
    · exact rounds_ofNat_short hn hshort
  · exact rounds_ofNat_long hlong

theorem ofNat_le_ofNat {m n : ℕ} (h : m ≤ n) : Float.ofNat m ≤ Float.ofNat n := by
  rw [le_iff (isNaN_of_nonneg (ofNat_nonneg m)) (isNaN_of_nonneg (ofNat_nonneg n))]
  apply (rounds_ofNat m).mono (rounds_ofNat n)
  exact_mod_cast h

end Counts

end Binary64

end Granularity
