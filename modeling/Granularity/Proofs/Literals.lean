import Granularity.Decimal.Read
import Granularity.Proofs.Bits
import Granularity.Proofs.Rounding
import Mathlib.Tactic.FieldSimp

namespace Granularity

open Float.Model Float.Model.UnpackedFloat Decimal

namespace Binary64

variable {m : ℕ} {e : ℤ}

theorem target_ge (n : ℕ) (e₀ : ℤ) : (n.log2 : ℤ) + e₀ - 52 ≤ Format.binary64.targetExponent (totalExponent n e₀) ∧
    -1074 ≤ Format.binary64.targetExponent (totalExponent n e₀) := by
  have hbits : Format.binary64.mantissaBits = 53 := rfl
  have hmin : Format.binary64.minExponent = -1074 := rfl
  rw [Format.targetExponent, totalExponent, hbits, hmin]
  omega

theorem round_exact (hm : 0 < m) (hheld : IsHeld m e) {n : ℕ} {e₀ : ℤ} (hn : 52 ≤ n.log2)
    (h : Nearest m e (n * 2 ^ e₀)) :
    roundWithAccuracy .binary64 .positive n e₀ .exact = .finite .positive m e hm := by
  have hone : n / 1 = n := Nat.div_one n
  have hdescribes : Describes (.ofMantissaAndAccuracy (n / 1) .exact) n 1 := hone.symm ▸ describes_exact n
  have htarget : e₀ ≤ Format.binary64.targetExponent (totalExponent (n / 1) e₀) := by
    have := (target_ge n e₀).1
    rw [hone]
    omega
  have hround := roundWithAccuracy_nearest .positive hm hheld Nat.one_pos hdescribes htarget
    (by rwa [Nat.cast_one, div_one])
  rwa [hone] at hround

theorem mul_nearest (hm : 0 < m) (hheld : IsHeld m e) {a b : ℕ} {c d : ℤ} (ha : 0 < a) (hb : 0 < b)
    (hlong : 2 ^ 52 ≤ a * b) (h : Nearest m e (a * 2 ^ c * (b * 2 ^ d))) :
    UnpackedFloat.mul .binary64 (.finite .positive a c ha) (.finite .positive b d hb) =
      .finite .positive m e hm := by
  have hvalue : (a : ℚ) * 2 ^ c * (b * 2 ^ d) = (a * b : ℕ) * 2 ^ (c + d) := by
    rw [zpow_add₀ (by norm_num)]
    push_cast
    ring
  rw [hvalue] at h
  exact round_exact hm hheld ((Nat.le_log2 (Nat.mul_pos ha hb).ne').2 hlong) h

/-- The quotient that is computed before rounding has all the bits that the result needs. -/
theorem log2_quotient {a b k : ℕ} (ha : 0 < a) (hb : 0 < b) (hk : b.log2 + 53 ≤ a.log2 + k) :
    52 ≤ ((a <<< k) / b).log2 := by
  have hquotient : 2 ^ 52 ≤ (a <<< k) / b := by
    rw [Nat.le_div_iff_mul_le hb, Nat.shiftLeft_eq]
    calc 2 ^ 52 * b ≤ 2 ^ 52 * 2 ^ (b.log2 + 1) := Nat.mul_le_mul_left _ Nat.lt_log2_self.le
      _ = 2 ^ (b.log2 + 53) := by rw [← Nat.pow_add]; congr 1; omega
      _ ≤ 2 ^ (a.log2 + k) := Nat.pow_le_pow_right (by decide) hk
      _ = 2 ^ a.log2 * 2 ^ k := Nat.pow_add ..
      _ ≤ a * 2 ^ k := Nat.mul_le_mul_right _ (Nat.log2_self_le ha.ne')
  exact (Nat.le_log2 (by omega)).2 hquotient

theorem div_positive {a b : ℕ} {c d : ℤ} (ha : 0 < a) (hb : 0 < b) :
    UnpackedFloat.div .binary64 (.finite .positive a c ha) (.finite .positive b d hb) =
      roundWithAccuracy .binary64 .positive (divCore .binary64 a c b d).1 (divCore .binary64 a c b d).2.1
        (divCore .binary64 a c b d).2.2 :=
  rfl

theorem div_nearest (hm : 0 < m) (hheld : IsHeld m e) {a b : ℕ} {c d : ℤ} (ha : 0 < a) (hb : 0 < b)
    (h : Nearest m e (a * 2 ^ c / (b * 2 ^ d))) :
    UnpackedFloat.div .binary64 (.finite .positive a c ha) (.finite .positive b d hb) =
      .finite .positive m e hm := by
  have hbits : Format.binary64.mantissaBits = 53 := rfl
  have hmin : Format.binary64.minExponent = -1074 := rfl
  obtain ⟨target, htarget⟩ : ∃ target, min (c - d)
      (Format.binary64.targetExponent (totalExponent a c - totalExponent b d)) = target := ⟨_, rfl⟩
  obtain ⟨k, hk⟩ : ∃ k : ℕ, c - d = target + k := ⟨(c - d - target).toNat, by omega⟩
  have hshift : (c - d - target).toNat = k := by omega
  have hcore : divCore .binary64 a c b d = ((a <<< k) / b, target, accuracyOfFraction ((a <<< k) % b) b) := by
    rw [divCore, htarget, hshift]
  have hdiv : UnpackedFloat.div .binary64 (.finite .positive a c ha) (.finite .positive b d hb) =
      roundWithAccuracy .binary64 .positive ((a <<< k) / b) target (accuracyOfFraction ((a <<< k) % b) b) := by
    rw [div_positive, hcore]
  rw [hdiv]
  apply roundWithAccuracy_nearest .positive hm hheld hb (describes_fraction _ hb)
  · have hge := target_ge ((a <<< k) / b) target
    rw [Format.targetExponent, totalExponent, totalExponent, hbits, hmin] at htarget
    by_cases hleast : target ≤ -1074
    · omega
    · have hlong := log2_quotient (k := k) ha hb (by omega)
      omega
  · have hvalue : ((a <<< k : ℕ) : ℚ) / b * 2 ^ target = a * 2 ^ c / (b * 2 ^ d) := by
      have hpowers : (2 : ℚ) ^ c = 2 ^ k * 2 ^ target * 2 ^ d := by
        rw [← zpow_natCast, ← zpow_add₀ (by norm_num), ← zpow_add₀ (by norm_num)]
        congr 1
        omega
      have hd : (2 : ℚ) ^ d ≠ 0 := (two_zpow_pos d).ne'
      have hb' : (b : ℚ) ≠ 0 := by exact_mod_cast hb.ne'
      rw [hpowers, Nat.shiftLeft_eq]
      push_cast
      field_simp
    rwa [hvalue]

section

variable {v : ℚ}

theorem Nearest.pos_pow (h : Nearest m e v) (hm : 0 < m) (hheld : IsHeld m e) : 2 ^ (-1075 : ℤ) ≤ v := by
  have hhalf : (1 / 2 : ℚ) ≤ m - 1 / 2 := by
    have : (1 : ℚ) ≤ m := by exact_mod_cast hm
    linarith
  have hpow : (2 : ℚ) ^ (-1074 : ℤ) ≤ 2 ^ e := zpow_le_zpow_right₀ (by norm_num) hheld.least
  have hsplit : (2 : ℚ) ^ (-1075 : ℤ) = 1 / 2 * 2 ^ (-1074 : ℤ) := by
    rw [show (-1075 : ℤ) = -1 + -1074 by norm_num, zpow_add₀ (by norm_num)]
    norm_num
  calc (2 : ℚ) ^ (-1075 : ℤ) = 1 / 2 * 2 ^ (-1074 : ℤ) := hsplit
    _ ≤ (m - 1 / 2) * 2 ^ e := by gcongr
    _ ≤ v := h.half_le

theorem Nearest.lt_top (h : Nearest m e v) (hheld : IsHeld m e) : v < 2 ^ (1024 : ℤ) := by
  refine (h.lt_pow hheld.short).trans_le (zpow_le_zpow_right₀ (by norm_num) ?_)
  have := hheld.most
  omega

end

/-- A decimal that rounds to a double is neither too large nor too small to be multiplied out. -/
theorem exponent_bounds (hm : 0 < m) (hheld : IsHeld m e) {n : ℕ} {k : ℤ} (hn : n ≠ 0)
    (h : Nearest m e (n * 10 ^ k)) : k ≤ 1024 ∧ -1076 - (n.log2 : ℤ) ≤ k := by
  have hone : (1 : ℚ) ≤ n := by exact_mod_cast Nat.one_le_iff_ne_zero.2 hn
  have hlog : (n : ℚ) < 2 ^ (n.log2 + 1) := by exact_mod_cast Nat.lt_log2_self
  constructor
  · by_contra hk
    have hten : (2 : ℚ) ^ (1024 : ℤ) ≤ 10 ^ k := by
      calc (2 : ℚ) ^ (1024 : ℤ) ≤ 10 ^ (1024 : ℤ) := zpow_le_zpow_left₀ (by norm_num) (by norm_num) (by norm_num)
        _ ≤ 10 ^ k := zpow_le_zpow_right₀ (by norm_num) (by omega)
    have hpos : (0 : ℚ) < 10 ^ k := zpow_pos (by norm_num) k
    have hmore : (10 : ℚ) ^ k ≤ n * 10 ^ k := le_mul_of_one_le_left hpos.le hone
    exact absurd (h.lt_top hheld) (hten.trans hmore).not_gt
  · by_contra hk
    obtain ⟨j, hj⟩ : ∃ j : ℕ, k = -j := ⟨(-k).toNat, by omega⟩
    have hten : (10 : ℚ) ^ k ≤ 2 ^ k := by
      rw [hj, zpow_neg, zpow_neg, zpow_natCast, zpow_natCast]
      apply inv_anti₀ (by positivity)
      gcongr
      norm_num
    have hless : (n : ℚ) * 10 ^ k < 2 ^ (((n.log2 + 1 : ℕ) : ℤ) + k) := by
      rw [zpow_add₀ (by norm_num), zpow_natCast]
      have hpos : (0 : ℚ) < 2 ^ k := two_zpow_pos k
      nlinarith
    have := lt_of_two_zpow_lt ((h.pos_pow hm hheld).trans_lt hless)
    omega

theorem ofScientific_nearest (hm : 0 < m) (hheld : IsHeld m e) {n : ℕ} {k : ℤ} (hn : n ≠ 0)
    (h : Nearest m e (n * 10 ^ k)) : UnpackedFloat.ofScientific .binary64 n k = .finite .positive m e hm := by
  have hbits : Format.binary64.exponentBits = 11 := rfl
  have hbounds := exponent_bounds hm hheld hn h
  have hlarge : ¬ k > 2 ^ Format.binary64.exponentBits := by
    rw [hbits]
    omega
  have hsmall : ¬ k < -((2 ^ Format.binary64.exponentBits : ℤ) + n.log2) := by
    rw [hbits]
    omega
  have hpos : 0 < n := Nat.pos_of_ne_zero hn
  rw [UnpackedFloat.ofScientific, dif_neg hn, if_neg hlarge, if_neg hsmall]
  by_cases hk : 0 ≤ k
  · rw [if_pos hk]
    apply mul_nearest hm hheld
    · have hone : 1 ≤ 10 ^ k.toNat := Nat.one_le_pow _ _ (by decide)
      have hmantissa : Format.binary64.mantissaBits = 53 := rfl
      rw [hmantissa, Nat.shiftLeft_eq]
      nlinarith
    · have hvalue : ((n <<< Format.binary64.mantissaBits : ℕ) : ℚ) * 2 ^ (-(Format.binary64.mantissaBits : ℤ)) *
          (((10 ^ k.toNat : ℕ) : ℚ) * 2 ^ (0 : ℤ)) = n * 10 ^ k := by
        rw [Nat.shiftLeft_eq, zpow_neg, zpow_natCast, zpow_zero, mul_one]
        push_cast
        rw [mul_assoc (n : ℚ), mul_inv_cancel₀ (by positivity), mul_one, ← zpow_natCast, Int.toNat_of_nonneg hk]
      rwa [hvalue]
  · rw [if_neg hk]
    apply div_nearest hm hheld
    have hvalue : ((n : ℕ) : ℚ) * 2 ^ (0 : ℤ) / (((10 ^ (-k).toNat : ℕ) : ℚ) * 2 ^ (0 : ℤ)) = n * 10 ^ k := by
      rw [zpow_zero, mul_one, mul_one]
      push_cast
      rw [← zpow_natCast, Int.toNat_of_nonneg (by omega), zpow_neg, div_inv_eq_mul]
    rwa [hvalue]

theorem Nearest.self (m : ℕ) (e : ℤ) : Nearest m e (m * 2 ^ e) := by
  have hpos := two_zpow_pos e
  have hhalf : 0 < lowerHalf m e := by
    unfold lowerHalf
    split <;> norm_num
  have hlow : (m - lowerHalf m e) * 2 ^ e < m * 2 ^ e := by nlinarith
  have hhigh : m * 2 ^ e < (m + 1 / 2 : ℚ) * 2 ^ e := by nlinarith
  exact ⟨hlow.le, hhigh.le, fun _ => ⟨hlow, hhigh⟩⟩

/-- A positive double that has all its bits and is exactly `v`. -/
def Represents (x : Float) (v : ℚ) : Prop :=
  ∃ m e h, x.toModel.unpack = .finite .positive m e h ∧ 2 ^ 52 ≤ m ∧ v = m * 2 ^ e

theorem mul_represented {x y z : Float} {a b : ℚ} {hm : 0 < m} (hz : z.toModel.unpack = .finite .positive m e hm)
    (hx : Represents x a) (hy : Represents y b) (h : Nearest m e (a * b)) : x * y = z := by
  obtain ⟨n, c, hn, hx, hlong, rfl⟩ := hx
  obtain ⟨k, d, hk, hy, -, rfl⟩ := hy
  apply eq_of_toModel hz
  change Float.Model.pack (UnpackedFloat.mul .binary64 x.toModel.unpack y.toModel.unpack) = _
  rw [hx, hy, mul_nearest hm (isHeld_unpack hz).1 hn hk (hlong.trans (Nat.le_mul_of_pos_right n hk)) h]

theorem div_represented {x y z : Float} {a b : ℚ} {hm : 0 < m} (hz : z.toModel.unpack = .finite .positive m e hm)
    (hx : Represents x a) (hy : Represents y b) (h : Nearest m e (a / b)) : x / y = z := by
  obtain ⟨n, c, hn, hx, -, rfl⟩ := hx
  obtain ⟨k, d, hk, hy, -, rfl⟩ := hy
  apply eq_of_toModel hz
  change Float.Model.pack (UnpackedFloat.div .binary64 x.toModel.unpack y.toModel.unpack) = _
  rw [hx, hy, div_nearest hm (isHeld_unpack hz).1 hn hk h]

theorem represents_toFloat {n : ℕ} (hn : 0 < n) (hshort : n < 2 ^ 53) : Represents n.toUInt64.toFloat n := by
  have hlog : n.log2 < 53 := (Nat.log2_lt hn.ne').2 hshort
  have hword : n.toUInt64.toNat = n := by
    rw [Nat.toUInt64_eq, UInt64.toNat_ofNat']
    omega
  have htarget := targetExponent_eq n 0 (by omega)
  have hcount : (-((n.log2 : ℤ) + 0 - 52)).toNat = 52 - n.log2 := by omega
  have hlog' := log2_shiftLeft hn.ne' (52 - n.log2)
  obtain ⟨m, hm⟩ : ∃ m, n <<< (52 - n.log2) = m := ⟨_, rfl⟩
  rw [hm] at hlog'
  have hne : m ≠ 0 := by
    rintro rfl
    rw [Nat.log2_zero] at hlog'
    omega
  have hlow : 2 ^ 52 ≤ m := (Nat.le_log2 hne).1 (by omega)
  have hhigh : m < 2 ^ 53 := (Nat.log2_lt hne).1 (by omega)
  have hpos : 0 < m := by omega
  have hheld : IsHeld m (-(52 - n.log2 : ℕ)) := ⟨by omega, hhigh, .inr hlow, by omega⟩
  refine ⟨m, -(52 - n.log2 : ℕ), hpos, ?_, hlow, ?_⟩
  · change (Float.Model.pack (UnpackedFloat.ofNat .binary64 n.toUInt64.toNat)).unpack = _
    have hfilled : UnpackedFloat.round .binary64 .positive n 0 =
        roundWithAccuracy .binary64 .positive m (-(52 - n.log2 : ℕ)) .exact := by
      simp only [UnpackedFloat.round, decreaseExponent, htarget, hcount, hm, zero_sub]
    have hround := round_exact hpos hheld (by omega) (Nearest.self m (-(52 - n.log2 : ℕ)))
    rw [hword, ofNat_eq_round hn, hfilled, hround, unpack_pack_held hpos hheld]
  · rw [← hm, Nat.shiftLeft_eq, zpow_neg, zpow_natCast]
    push_cast
    rw [mul_assoc, mul_inv_cancel₀ (by positivity), mul_one]

theorem bits_power : ∀ k : Fin 23, ∀ _ : k.val < Float.exactlyRepresentablePowersOfTen.size,
    signedBits Float.exactlyRepresentablePowersOfTen[k.val] =
        heldBits ((10 ^ k.val <<< 52) >>> (10 ^ k.val).log2) ((10 ^ k.val).log2 - 52) ∧
      2 ^ 52 ≤ (10 ^ k.val <<< 52) >>> (10 ^ k.val).log2 ∧ (10 ^ k.val <<< 52) >>> (10 ^ k.val).log2 < 2 ^ 53 ∧
      (10 ^ k.val <<< 52) >>> (10 ^ k.val).log2 * 2 ^ (10 ^ k.val).log2 = 10 ^ k.val * 2 ^ 52 ∧
      (10 ^ k.val).log2 ≤ 73 := by
  decide +kernel

theorem represents_power {k : ℕ} (hk : k ≤ 22) (h : k < Float.exactlyRepresentablePowersOfTen.size) :
    Represents Float.exactlyRepresentablePowersOfTen[k] (10 ^ k : ℕ) := by
  obtain ⟨hbits, hlow, hhigh, hvalue, hlog⟩ := bits_power ⟨k, by omega⟩ h
  simp only at hbits hlow hhigh hvalue hlog
  generalize (10 ^ k <<< 52) >>> (10 ^ k).log2 = m at hbits hlow hhigh hvalue
  generalize (10 ^ k).log2 = j at hbits hvalue hlog
  have hpos : 0 < m := by omega
  have hheld : IsHeld m (j - 52) := ⟨by omega, hhigh, .inr hlow, by omega⟩
  refine ⟨m, j - 52, hpos, unpack_of_signedBits hpos hheld hbits, hlow, ?_⟩
  have hvalue' : (m : ℚ) * 2 ^ j = (10 ^ k : ℕ) * 2 ^ 52 := by exact_mod_cast hvalue
  rw [zpow_sub₀ (by norm_num), zpow_natCast, ← mul_div_assoc, hvalue']
  norm_num

theorem ofScientific_represented {x : Float} {hm : 0 < m} (hx : x.toModel.unpack = .finite .positive m e hm)
    (s : Bool) {n k : ℕ} (hn : n ≠ 0) (h : Nearest m e (n * 10 ^ (if s = true then -(k : ℤ) else k))) :
    Float.ofScientific n s k = x := by
  have hheld := (isHeld_unpack hx).1
  unfold Float.ofScientific
  split
  · -- both numbers are doubles, so that there is one rounding
    next hfast =>
    have hleft := represents_toFloat (Nat.pos_of_ne_zero hn) hfast.1
    have hright := represents_power hfast.2 (Nat.lt_succ_of_le hfast.2)
    cases s with
    | true =>
      rw [if_pos rfl, zpow_neg, zpow_natCast, ← div_eq_mul_inv] at h
      exact div_represented hx hleft hright (by exact_mod_cast h)
    | false =>
      rw [if_neg (by decide), zpow_natCast] at h
      exact mul_represented hx hleft hright (by exact_mod_cast h)
  · apply eq_of_toModel hx
    have hexponent : (if s = true then Int.negOfNat k else Int.ofNat k) = if s = true then -(k : ℤ) else k := by
      rw [Int.negOfNat_eq]
      rfl
    change Float.Model.pack (UnpackedFloat.ofScientific .binary64 n _) = _
    rw [hexponent, ofScientific_nearest hm hheld hn h]

theorem two_zpow_le_ten {k : ℤ} (hk : k ≤ 3 * 400) : (2 : ℚ) ^ k ≤ 10 ^ (400 : ℤ) :=
  calc (2 : ℚ) ^ k ≤ 2 ^ (3 * 400 : ℤ) := zpow_le_zpow_right₀ (by norm_num) hk
    _ = (2 ^ (3 : ℤ)) ^ (400 : ℤ) := zpow_mul 2 3 400
    _ ≤ 10 ^ (400 : ℤ) := zpow_le_zpow_left₀ (by norm_num) (by norm_num) (by norm_num)

theorem digitCount_bounds {n : ℕ} (hn : n ≠ 0) :
    (10 : ℚ) ^ ((digitCount n : ℤ) - 1) ≤ n ∧ (n : ℚ) < 10 ^ (digitCount n : ℤ) := by
  have hpos : 0 < digitCount n := Nat.length_toDigits_pos
  obtain ⟨k, hk⟩ : ∃ k, digitCount n = k + 1 := ⟨digitCount n - 1, by omega⟩
  constructor
  · have hlow : 10 ^ k ≤ n := by
      rcases Nat.eq_zero_or_pos k with rfl | hk'
      · exact Nat.one_le_iff_ne_zero.2 hn
      · by_contra hlt
        have := (Nat.length_toDigits_le_iff (by decide) hk').2 (Nat.lt_of_not_le hlt)
        rw [digitCount] at hk
        omega
    rw [hk, Nat.cast_succ, add_sub_cancel_right, zpow_natCast]
    exact_mod_cast hlow
  · rw [zpow_natCast]
    exact_mod_cast (Nat.length_toDigits_le_iff (by decide) hpos).1 le_rfl

theorem size_bounds (hm : 0 < m) (hheld : IsHeld m e) {n : ℕ} {k : ℤ} (hn : n ≠ 0) (h : Nearest m e (n * 10 ^ k)) :
    -400 ≤ (digitCount n : ℤ) + k ∧ (digitCount n : ℤ) + k ≤ 400 := by
  obtain ⟨hlow, hhigh⟩ := digitCount_bounds hn
  have hpos : (0 : ℚ) < 10 ^ k := zpow_pos (by norm_num) k
  have hten {a b : ℤ} (h : (10 : ℚ) ^ a < 10 ^ b) : a < b := (zpow_lt_zpow_iff_right₀ (by norm_num)).1 h
  constructor
  · have hless : (10 : ℚ) ^ (-400 : ℤ) < 10 ^ ((digitCount n : ℤ) + k) := by
      calc (10 : ℚ) ^ (-400 : ℤ) ≤ 2 ^ (-1075 : ℤ) := by
            rw [zpow_neg, zpow_neg]
            exact inv_anti₀ (two_zpow_pos _) (two_zpow_le_ten (by omega))
        _ ≤ n * 10 ^ k := h.pos_pow hm hheld
        _ < 10 ^ (digitCount n : ℤ) * 10 ^ k := mul_lt_mul_of_pos_right hhigh hpos
        _ = 10 ^ ((digitCount n : ℤ) + k) := (zpow_add₀ (by norm_num) _ _).symm
    exact (hten hless).le
  · have hless : (10 : ℚ) ^ ((digitCount n : ℤ) - 1 + k) < 10 ^ (400 : ℤ) := by
      calc (10 : ℚ) ^ ((digitCount n : ℤ) - 1 + k) = 10 ^ ((digitCount n : ℤ) - 1) * 10 ^ k :=
            zpow_add₀ (by norm_num) _ _
        _ ≤ n * 10 ^ k := mul_le_mul_of_nonneg_right hlow hpos.le
        _ < 2 ^ (1024 : ℤ) := h.lt_top hheld
        _ ≤ 10 ^ (400 : ℤ) := two_zpow_le_ten (by omega)
    have := hten hless
    omega

end Binary64

open Binary64

namespace Decimal.Literal

/-- The sign of a double by a mark in front of its digits. -/
def sign (l : Literal) : Sign :=
  if l.negative = true then .negative else .positive

theorem toFloat_nearest {l : Literal} {x : Float} {m : ℕ} {e : ℤ} {hm : 0 < m}
    (hx : x.toModel.unpack = .finite l.sign m e hm) (hl : l.mantissa ≠ 0)
    (h : Nearest m e (l.mantissa * 10 ^ l.exponent)) : l.toFloat = x := by
  have hheld := (isHeld_unpack hx).1
  obtain ⟨y, hy⟩ : ∃ y : Float, y.toModel.unpack = .finite .positive m e hm :=
    ⟨.ofModel (Float.Model.pack (.finite .positive m e hm)), unpack_pack_held hm hheld⟩
  obtain ⟨hsmall, hlarge⟩ := size_bounds hm hheld hl h
  have hmagnitude : (if l.exponent < 0 then Float.ofScientific l.mantissa true (-l.exponent).toNat
      else Float.ofScientific l.mantissa false l.exponent.toNat) = y := by
    split
    · apply ofScientific_represented hy true hl
      rwa [if_pos rfl, Int.toNat_of_nonneg (by omega), neg_neg]
    · apply ofScientific_represented hy false hl
      rwa [if_neg (by decide), Int.toNat_of_nonneg (by omega)]
  have hfirst : ¬ (decide (l.mantissa = 0) || decide ((digitCount l.mantissa : ℤ) + l.exponent < -400)) = true := by
    rw [Bool.or_eq_true, decide_eq_true_eq, decide_eq_true_eq]
    omega
  unfold toFloat
  simp only
  rw [if_neg hfirst, if_neg hlarge.not_gt, hmagnitude]
  rw [sign] at hx
  split
  · next hneg =>
    rw [if_pos hneg] at hx
    exact neg_eq_of_unpack hx hy
  · next hneg =>
    rw [if_neg hneg] at hx
    exact eq_of_unpack hy hx

end Decimal.Literal

end Granularity
