import Granularity.Risk
import Mathlib.Algebra.Order.Ring.Int

/-!
Scores under the default weights. The part for the missing dimensions grows by a half for each of the first
four and stays at two from there on, however many there are. The value of a count is a rounded one, so this
is shown on the bits: a count from four on is a number of at least `2 ^ 2`, half of it is at least two, and
what reaches two is cut to two.
-/

namespace Granularity

open Float.Model Float.Model.UnpackedFloat

namespace Binary64

theorem mantissa_shiftRight (em : ExtendedMantissa) (k : Nat) : (em >>> k).mantissa = em.mantissa / 2 ^ k := by
  change (Nat.repeat ExtendedMantissa.shiftRightOne k em).mantissa = _
  induction k with
  | zero => simp [Nat.repeat]
  | succ k ih =>
    rw [Nat.repeat, ExtendedMantissa.shiftRightOne]
    simp only
    rw [ih, Nat.div_div_eq_div_mul, ← Nat.pow_succ]

theorem bits_shiftRight (m k : Nat) (h : 2 ^ k ∣ m) :
    (ExtendedMantissa.mk m false false >>> k) = ⟨m / 2 ^ k, false, false⟩ := by
  change Nat.repeat ExtendedMantissa.shiftRightOne k ⟨m, false, false⟩ = _
  induction k with
  | zero => simp [Nat.repeat]
  | succ k ih =>
    obtain ⟨n, rfl⟩ := h
    have hk := ih ⟨2 * n, by rw [Nat.pow_succ, Nat.mul_assoc]⟩
    have hdiv : 2 ^ (k + 1) * n / 2 ^ k = 2 * n := by
      rw [Nat.pow_succ, Nat.mul_assoc, Nat.mul_div_cancel_left _ (Nat.two_pow_pos k)]
    rw [Nat.repeat, hk, ExtendedMantissa.shiftRightOne, hdiv, Nat.mul_div_cancel_left _ (Nat.two_pow_pos (k + 1))]
    simp

theorem roundToNearestEven_eq_or (m : Nat) (a : Accuracy) :
    a.roundToNearestEven m = m ∨ a.roundToNearestEven m = m + 1 := by
  unfold Accuracy.roundToNearestEven
  split
  · exact .inl rfl
  · exact .inl rfl
  · omega
  · exact .inr rfl

/-- The mantissa has the 53 bits of a normal number. -/
structure IsNormal (m : Nat) : Prop where
  low : 2 ^ 52 ≤ m
  high : m < 2 ^ 53

theorem IsNormal.log2_eq {m : Nat} (h : IsNormal m) : m.log2 = 52 :=
  (Nat.log2_eq_iff (by have := h.low; omega)).2 ⟨h.low, h.high⟩

theorem isNormal_div {m : Nat} (h : 52 ≤ m.log2) : IsNormal (m / 2 ^ (m.log2 - 52)) := by
  have hne : m ≠ 0 := by
    rintro rfl
    simp at h
  have hlow := Nat.log2_self_le hne
  have hhigh := Nat.lt_log2_self (n := m)
  have hsplit : m.log2 = 52 + (m.log2 - 52) := by omega
  have hsplit' : m.log2 + 1 = 53 + (m.log2 - 52) := by omega
  constructor
  · rw [Nat.le_div_iff_mul_le (Nat.two_pow_pos _), ← Nat.pow_add, ← hsplit]
    exact hlow
  · rw [Nat.div_lt_iff_lt_mul (Nat.two_pow_pos _), ← Nat.pow_add, ← hsplit']
    exact hhigh

theorem targetExponent_eq (m : Nat) (e : Int) (he : -1022 ≤ m.log2 + e) :
    Format.binary64.targetExponent (totalExponent m e) = m.log2 + e - 52 := by
  have hbits : Format.binary64.mantissaBits = 53 := rfl
  have hmin : Format.binary64.minExponent = -1074 := rfl
  rw [Format.targetExponent, totalExponent, hbits, hmin]
  omega

theorem shiftToTargetExponent_eq (m : Nat) (e : Int) (hm : 52 ≤ m.log2) (he : -1022 ≤ m.log2 + e) :
    shiftToTargetExponent .binary64 m e .exact =
      (ExtendedMantissa.mk m false false >>> (m.log2 - 52), e + (m.log2 - 52 : Nat)) := by
  have hshift : ((m.log2 : Int) + e - 52 - e).toNat = m.log2 - 52 := by omega
  simp only [shiftToTargetExponent, shiftToExponent, targetExponent_eq m e he, hshift,
    ExtendedMantissa.ofMantissaAndAccuracy]

theorem roundWithAccuracy_eq {s : Sign} {m : Nat} {e e₁ e₂ : Int} {acc : Accuracy} {em₁ em₂ : ExtendedMantissa}
    (h₁ : shiftToTargetExponent .binary64 m e acc = (em₁, e₁))
    (h₂ : shiftToTargetExponent .binary64 em₁.roundedMantissa e₁ .exact = (em₂, e₂)) (hpos : 0 < em₂.mantissa) :
    roundWithAccuracy .binary64 s m e acc = .finite s em₂.mantissa e₂ hpos := by
  rw [roundWithAccuracy, h₁]
  dsimp only
  rw [h₂]
  exact dif_neg (Nat.pos_iff_ne_zero.1 hpos)

/-- Rounding a long mantissa gives a normal number that is as large at least, up to its last bit, and
the same number if no bit is lost. -/
theorem roundWithAccuracy_normal (s : Sign) (m : Nat) (e : Int) (hm : 52 ≤ m.log2) (he : -1022 ≤ m.log2 + e) :
    ∃ m' e' h, roundWithAccuracy .binary64 s m e .exact = .finite s m' e' h ∧ IsNormal m' ∧
      m.log2 + e - 52 ≤ e' ∧ (2 ^ (m.log2 - 52) ∣ m → m' = m / 2 ^ (m.log2 - 52) ∧ e' = m.log2 + e - 52) := by
  have hdiv := isNormal_div hm
  obtain ⟨em, hem⟩ : ∃ em, ExtendedMantissa.mk m false false >>> (m.log2 - 52) = em := ⟨_, rfl⟩
  have h₁ := shiftToTargetExponent_eq m e hm he
  have hmantissa : em.mantissa = m / 2 ^ (m.log2 - 52) := by rw [← hem, mantissa_shiftRight]
  have hexact (h : 2 ^ (m.log2 - 52) ∣ m) : em.roundedMantissa = m / 2 ^ (m.log2 - 52) := by
    rw [← hem, bits_shiftRight m _ h]
    rfl
  have hor : em.roundedMantissa = em.mantissa ∨ em.roundedMantissa = em.mantissa + 1 :=
    roundToNearestEven_eq_or em.mantissa em.accuracy
  rw [hem] at h₁
  rw [hmantissa] at hor
  have hlow : 2 ^ 52 ≤ em.roundedMantissa := by
    have := hdiv.low
    omega
  have hhigh : em.roundedMantissa ≤ 2 ^ 53 := by
    have := hdiv.high
    omega
  rcases Nat.lt_or_eq_of_le hhigh with hlt | hcarry
  · -- no carry: the mantissa stays
    have hnormal : IsNormal em.roundedMantissa := ⟨hlow, hlt⟩
    have hlog := hnormal.log2_eq
    have h₂ := shiftToTargetExponent_eq em.roundedMantissa (e + (m.log2 - 52 : Nat)) (by omega) (by omega)
    have hlast : (ExtendedMantissa.mk em.roundedMantissa false false >>> (em.roundedMantissa.log2 - 52)).mantissa =
        em.roundedMantissa := by
      rw [mantissa_shiftRight, hlog, Nat.sub_self, Nat.pow_zero, Nat.div_one]
    refine ⟨_, _, _, roundWithAccuracy_eq h₁ h₂ (by omega), ?_, by omega, fun h => ⟨?_, by omega⟩⟩
    · rwa [hlast]
    · rw [hlast, hexact h]
  · -- the carry makes one bit more, which the second shift takes away
    have hlog : em.roundedMantissa.log2 = 53 := by rw [hcarry]; exact Nat.log2_two_pow
    have h₂ := shiftToTargetExponent_eq em.roundedMantissa (e + (m.log2 - 52 : Nat)) (by omega) (by omega)
    have hlast : (ExtendedMantissa.mk em.roundedMantissa false false >>> (em.roundedMantissa.log2 - 52)).mantissa =
        2 ^ 52 := by
      rw [mantissa_shiftRight, hlog, hcarry]
      rfl
    refine ⟨_, _, _, roundWithAccuracy_eq h₁ h₂ (by omega), ?_, by omega, fun h => ?_⟩
    · rw [hlast]
      exact ⟨by decide, by decide⟩
    · have hhigh := hdiv.high
      rw [← hexact h] at hhigh
      omega

section

variable {b : BitVec 64}

theorem toNat_implicit (v : BitVec 52) : (1#1 ++ v).toNat = 2 ^ 52 + v.toNat := by
  rw [BitVec.toNat_append, ← Nat.shiftLeft_add_eq_or_of_lt v.isLt]
  rfl

theorem toNat_pos {v : BitVec 52} (h : v ≠ 0#52) : 0 < v.toNat :=
  Nat.pos_of_ne_zero fun hzero => h (BitVec.eq_of_toNat_eq hzero)

theorem finite_congr {s s' : Sign} {m m' : Nat} {e e' : Int} {h : 0 < m} {h' : 0 < m'} (hs : s = s') (hm : m = m')
    (he : e = e') : UnpackedFloat.finite s m e h = .finite s' m' e' h' := by
  subst hs hm he
  rfl

theorem unpack_special (hall : @unpackExponent .binary64 b = -1#11) : UnpackedFloat.unpack .binary64 b =
    if @unpackMantissa .binary64 b = 0#52 then .infinity (Sign.ofBitVec (@unpackSign .binary64 b)) else .notANumber :=
  if_pos hall

theorem unpack_small (hleast : @unpackExponent .binary64 b = 0#11) : UnpackedFloat.unpack .binary64 b =
    if h : @unpackMantissa .binary64 b = 0#52 then .zero (Sign.ofBitVec (@unpackSign .binary64 b))
    else .finite (Sign.ofBitVec (@unpackSign .binary64 b)) (@unpackMantissa .binary64 b).toNat (-1074)
      (toNat_pos h) := by
  have hnot : @unpackExponent .binary64 b ≠ -1#11 := by rw [hleast]; decide
  refine (if_neg hnot).trans ((if_pos hleast).trans ?_)
  by_cases hzero : @unpackMantissa .binary64 b = 0#52
  · refine (dif_pos hzero).trans ?_
    rw [dif_pos hzero]
  · refine (dif_neg hzero).trans ?_
    rw [dif_neg hzero]
    refine finite_congr rfl rfl ?_
    rw [hleast]
    rfl

theorem unpack_normal (hall : @unpackExponent .binary64 b ≠ -1#11) (hleast : @unpackExponent .binary64 b ≠ 0#11) :
    UnpackedFloat.unpack .binary64 b = .finite (Sign.ofBitVec (@unpackSign .binary64 b))
      (1#1 ++ @unpackMantissa .binary64 b).toNat ((@unpackExponent .binary64 b).toNat - (1023 + 52))
      (by rw [toNat_implicit]; omega) :=
  (if_neg hall).trans (if_neg hleast)

end

theorem unpackSign_packComponents (s : Sign) (e : BitVec 11) (m : BitVec 52) :
    unpackSign (packComponents .binary64 s e m) = s.toBitVec := by
  have htop (a : BitVec 1) : (a ++ e ++ m).getLsbD 63 = a.getLsbD 0 := by
    rw [BitVec.getLsbD_append, if_neg (by decide), BitVec.getLsbD_append, if_neg (by decide)]
  ext i hi
  obtain rfl : i = 0 := by omega
  delta unpackSign packComponents
  simp only [BitVec.cast_eq, BitVec.getElem_extract]
  exact htop s.toBitVec

theorem ofBitVec_toBitVec (s : Sign) : Sign.ofBitVec s.toBitVec = s := by cases s <;> rfl

theorem unpack_infinity (s : Sign) : (Float.Model.pack (.infinity s)).unpack = .infinity s := by
  cases s <;> rfl

theorem pack_finite (s : Sign) {m : Nat} (e : Int) (h : 0 < m) : UnpackedFloat.pack .binary64 (.finite s m e h) =
    if 2 ^ 11 ≤ (e + 1023 + 52).toNat + 1 then packedInfinity .binary64 s
    else if m.log2 + 1 = 53 then
      packComponents .binary64 s (BitVec.ofNat 11 (e + 1023 + 52).toNat) (BitVec.ofNat 52 m)
    else packComponents .binary64 s 0#11 (BitVec.ofNat 52 m) :=
  rfl

theorem unpack_pack {s : Sign} {m : Nat} {e : Int} (h : 0 < m) (hm : IsNormal m) (he : -1074 ≤ e) (hmax : e < 972) :
    (Float.Model.pack (.finite s m e h)).unpack = .finite s m e h := by
  obtain ⟨b, hb⟩ : ∃ b : Nat, e + 1023 + 52 = b := ⟨(e + 1023 + 52).toNat, by omega⟩
  have hpack : UnpackedFloat.pack .binary64 (.finite s m e h) =
      packComponents .binary64 s (BitVec.ofNat 11 b) (BitVec.ofNat 52 m) := by
    have hfits : ¬ 2 ^ 11 ≤ b + 1 := by omega
    rw [pack_finite, hb, Int.toNat_natCast, if_neg hfits, if_pos (by rw [hm.log2_eq])]
  have hmant : (1#1 ++ BitVec.ofNat 52 m).toNat = m := by
    have hlow := hm.low
    have hhigh := hm.high
    rw [toNat_implicit, BitVec.toNat_ofNat]
    omega
  -- the exponent field is neither all ones nor zero, so it is read as that of a normal number
  have hfield : (BitVec.ofNat 11 b).toNat = b := by
    rw [BitVec.toNat_ofNat, Nat.mod_eq_of_lt (by omega)]
  have hall : BitVec.ofNat 11 b ≠ -1#11 := by
    intro heq
    have hmost : b = 2047 := by rw [← hfield, heq]; rfl
    omega
  have hzero : BitVec.ofNat 11 b ≠ 0#11 := by
    intro heq
    have hleast : b = 0 := by rw [← hfield, heq]; rfl
    omega
  have hexp : ((BitVec.ofNat 11 b).toNat : Int) - (1023 + 52) = e := by
    rw [hfield]
    omega
  change UnpackedFloat.unpack .binary64 (UnpackedFloat.pack .binary64 (.finite s m e h)) = _
  rw [hpack]
  have hexponent : unpackExponent (packComponents .binary64 s (BitVec.ofNat 11 b) (BitVec.ofNat 52 m)) =
      BitVec.ofNat 11 b := unpackExponent_packComponents
  have hmantissa : unpackMantissa (packComponents .binary64 s (BitVec.ofNat 11 b) (BitVec.ofNat 52 m)) =
      BitVec.ofNat 52 m := unpackMantissa_packComponents
  rw [← hexponent] at hall hzero hexp
  rw [← hmantissa] at hmant
  refine (unpack_normal hall hzero).trans (finite_congr ?_ hmant hexp)
  rw [unpackSign_packComponents, ofBitVec_toBitVec]

theorem unpack_pack_large {s : Sign} {m : Nat} {e : Int} (h : 0 < m) (hmax : 972 ≤ e) :
    (Float.Model.pack (.finite s m e h)).unpack = .infinity s := by
  have hpack : UnpackedFloat.pack .binary64 (.finite s m e h) = packedInfinity .binary64 s := by
    rw [pack_finite, if_pos (by omega)]
  change UnpackedFloat.unpack .binary64 (UnpackedFloat.pack .binary64 (.finite s m e h)) = _
  rw [hpack]
  exact unpack_infinity s

theorem log2_shiftLeft {n : Nat} (hn : n ≠ 0) (k : Nat) : (n <<< k).log2 = n.log2 + k := by
  induction k with
  | zero => rfl
  | succ k ih =>
    have hne : n <<< k ≠ 0 := by
      rw [Nat.shiftLeft_eq]
      exact Nat.mul_ne_zero hn (Nat.ne_of_gt (Nat.two_pow_pos k))
    rw [Nat.shiftLeft_succ, Nat.log2_two_mul hne, ih, Nat.add_assoc]

/-- Positive, with the bits of a normal number, and at least `2 ^ (52 + k)`. -/
def Reaches (k : Int) (u : UnpackedFloat) : Prop :=
  u = .infinity .positive ∨ ∃ m e h, u = .finite .positive m e h ∧ IsNormal m ∧ k ≤ e

theorem Reaches.mono {j k : Int} {u : UnpackedFloat} (hjk : j ≤ k) (h : Reaches k u) : Reaches j u := by
  rcases h with rfl | ⟨m, e, hpos, rfl, hm, he⟩
  · exact .inl rfl
  · exact .inr ⟨m, e, hpos, rfl, hm, by omega⟩

theorem Reaches.unpack_pack {k : Int} {u : UnpackedFloat} (hk : -1074 ≤ k) (h : Reaches k u) :
    Reaches k (Float.Model.pack u).unpack := by
  rcases h with rfl | ⟨m, e, hpos, rfl, hm, he⟩
  · exact .inl (unpack_infinity .positive)
  · rcases Int.lt_or_le e 972 with hmax | hmax
    · exact .inr ⟨m, e, hpos, Binary64.unpack_pack hpos hm (by omega) hmax, hm, he⟩
    · exact .inl (unpack_pack_large hpos hmax)

theorem reaches_roundWithAccuracy {m : Nat} {e : Int} (hm : 52 ≤ m.log2) (he : -1022 ≤ m.log2 + e) :
    Reaches (m.log2 + e - 52) (roundWithAccuracy .binary64 .positive m e .exact) := by
  obtain ⟨m', e', h, hround, hnormal, hle, -⟩ := roundWithAccuracy_normal .positive m e hm he
  exact .inr ⟨m', e', h, hround, hnormal, hle⟩

theorem roundWithAccuracy_shifted {m : Nat} {e : Int} (h : 0 < m) (hm : IsNormal m) (he : -1126 ≤ e) :
    roundWithAccuracy .binary64 .positive (m <<< 52) e .exact = .finite .positive m (e + 52) h := by
  have hlog : (m <<< 52).log2 = 104 := by rw [log2_shiftLeft (Nat.pos_iff_ne_zero.1 h), hm.log2_eq]
  obtain ⟨m', e', h', hround, -, -, hexact⟩ :=
    roundWithAccuracy_normal .positive (m <<< 52) e (by omega) (by omega)
  have hdvd : 2 ^ ((m <<< 52).log2 - 52) ∣ m <<< 52 := by
    rw [hlog, Nat.shiftLeft_eq]
    exact Nat.dvd_mul_left _ _
  obtain ⟨hm', he'⟩ := hexact hdvd
  have hsame : m' = m := by rw [hm', hlog, Nat.shiftLeft_eq, Nat.mul_div_cancel _ (Nat.two_pow_pos _)]
  have hexp : e' = e + 52 := by omega
  subst hsame hexp
  exact hround

theorem Reaches.mul_pow {k j : Int} {u : UnpackedFloat} (hk : -1126 ≤ k + j) (h : Reaches k u) :
    Reaches (k + j + 52) (UnpackedFloat.mul .binary64 (.finite .positive (2 ^ 52) j (by decide)) u) ∧
      Reaches (k + j + 52) (UnpackedFloat.mul .binary64 u (.finite .positive (2 ^ 52) j (by decide))) := by
  rcases h with rfl | ⟨m, e, hpos, rfl, hm, he⟩
  · exact ⟨.inl rfl, .inl rfl⟩
  · have hround := roundWithAccuracy_shifted (e := j + e) hpos hm (by omega)
    have hreach : Reaches (k + j + 52) (.finite .positive m (j + e + 52) hpos) := .inr ⟨_, _, _, rfl, hm, by omega⟩
    rw [← hround, Nat.shiftLeft_eq] at hreach
    refine ⟨?_, ?_⟩
    · rwa [Nat.mul_comm] at hreach
    · rwa [Int.add_comm j] at hreach

theorem normalize_natCast {n : Nat} (hn : 0 < n) (e : Int) :
    UnpackedFloat.normalize .binary64 n e .positive = UnpackedFloat.round .binary64 .positive n e := by
  have hcompare : compare (n : Int) 0 = .gt := by
    rw [Int.compare_eq_gt]
    omega
  simp only [UnpackedFloat.normalize, hcompare, Int.toNat_natCast]

theorem ofNat_eq_round {n : Nat} (hn : 0 < n) :
    UnpackedFloat.ofNat .binary64 n = UnpackedFloat.round .binary64 .positive n 0 :=
  normalize_natCast hn 0

theorem reaches_ofNat_model {n : Nat} (hn : n ≠ 0) :
    Reaches (n.log2 - 52) (UnpackedFloat.ofNat .binary64 n) := by
  have htarget := targetExponent_eq n 0 (by omega)
  have hshift : ((0 : Int) - (n.log2 + 0 - 52)).toNat = 52 - n.log2 := by omega
  have hlog := log2_shiftLeft hn (52 - n.log2)
  have hround := reaches_roundWithAccuracy (m := n <<< (52 - n.log2)) (e := 0 - (52 - n.log2 : Nat))
    (by omega) (by omega)
  have hexp : ((n <<< (52 - n.log2)).log2 : Int) + (0 - (52 - n.log2 : Nat)) - 52 = n.log2 - 52 := by omega
  rw [hexp] at hround
  rw [ofNat_eq_round (Nat.pos_of_ne_zero hn)]
  simp only [UnpackedFloat.round, decreaseExponent, htarget, hshift]
  exact hround

theorem unpack_one : (Float.ofBits 0x3FF0000000000000).toModel.unpack =
    .finite .positive (2 ^ 52) (-52) (by decide) := by
  rfl

theorem unpack_half : (0.5 : Float).toModel.unpack = .finite .positive (2 ^ 52) (-53) (by decide) := by
  rfl

theorem unpack_two : (2 : Float).toModel.unpack = .finite .positive (2 ^ 52) (-51) (by decide) := by
  rfl

theorem toModel_ofNat_short {n : Nat} (hn : n < 2 ^ 53) : (Float.ofNat n).toModel =
    Float.Model.pack (UnpackedFloat.mul .binary64 (Float.Model.pack (UnpackedFloat.ofNat .binary64 n)).unpack
      (Float.ofBits 0x3FF0000000000000).toModel.unpack) := by
  have hword : n.toUInt64.toNat = n := by
    rw [Nat.toUInt64_eq, UInt64.toNat_ofNat']
    omega
  have hfast : n < 2 ^ 53 ∧ 0 ≤ 22 := ⟨hn, by omega⟩
  have hval : Float.ofNat n = n.toUInt64.toFloat * Float.ofBits 0x3FF0000000000000 := by
    change Float.ofScientific n false 0 = _
    unfold Float.ofScientific
    rw [dif_pos hfast]
    rfl
  rw [hval]
  change Float.Model.pack (UnpackedFloat.mul .binary64
    (Float.Model.pack (UnpackedFloat.ofNat .binary64 n.toUInt64.toNat)).unpack _) = _
  rw [hword]

theorem toModel_ofNat_long {n : Nat} (hn : 2 ^ 53 ≤ n) : (Float.ofNat n).toModel =
    Float.Model.pack (roundWithAccuracy .binary64 .positive (n <<< 53 * 1) (-53 + 0) .exact) := by
  have hslow : ¬ (n < 2 ^ 53 ∧ 0 ≤ 22) := by omega
  have hval : Float.ofNat n = .ofModel (Float.Model.ofScientific n 0) := by
    change Float.ofScientific n false 0 = _
    unfold Float.ofScientific
    rw [dif_neg hslow]
    rfl
  rw [hval]
  have hne : n ≠ 0 := by omega
  change Float.Model.pack (UnpackedFloat.ofScientific .binary64 n 0) = _
  have hrange : ¬ (0 : Int) < -((2 ^ Format.binary64.exponentBits : Int) + n.log2) := by
    have hbits : Format.binary64.exponentBits = 11 := rfl
    rw [hbits]
    omega
  rw [UnpackedFloat.ofScientific, dif_neg hne, if_neg (by decide), if_neg hrange, if_pos (by decide)]
  rfl

theorem reaches_ofNat {n : Nat} (hn : n ≠ 0) : Reaches (n.log2 - 52) (Float.ofNat n).toModel.unpack := by
  rcases Nat.lt_or_ge n (2 ^ 53) with hsmall | hlarge
  · -- a short number is converted as it stands and multiplied by one
    rw [toModel_ofNat_short hsmall, unpack_one]
    have hmodel := (reaches_ofNat_model hn).unpack_pack (by omega)
    have hmul := (hmodel.mul_pow (j := -52) (by omega)).2
    have hexp : (n.log2 : Int) - 52 + -52 + 52 = n.log2 - 52 := by omega
    rw [hexp] at hmul
    exact hmul.unpack_pack (by omega)
  · -- a long one is rounded at once
    have hlog := log2_shiftLeft hn 53
    have hround := reaches_roundWithAccuracy (m := n <<< 53) (e := -53) (by omega) (by omega)
    rw [hlog] at hround
    have hexp : ((n.log2 + 53 : Nat) : Int) + -53 - 52 = n.log2 - 52 := by omega
    rw [hexp] at hround
    rw [toModel_ofNat_long hlarge, Nat.mul_one]
    exact hround.unpack_pack (by omega)

end Binary64

open Binary64

theorem smaller_of_lt {x y : Float} (h : y.toModel.unpack.compare x.toModel.unpack = some .lt) :
    Weights.smaller x y = y := by
  have hless : y < x := by
    change decide (y.toModel.unpack.lt x.toModel.unpack = true) = true
    rw [UnpackedFloat.lt, h]
    rfl
  rw [Weights.smaller, if_pos (by simp [hless])]

theorem smaller_two {u : UnpackedFloat} (h : Reaches (-51) u) :
    Weights.smaller (.ofModel (Float.Model.pack u)) 2 = 2 := by
  have hinf : UnpackedFloat.compare (.finite .positive (2 ^ 52) (-51) (by decide)) (.infinity .positive) = some .lt :=
    rfl
  rcases h with rfl | ⟨m, e, hpos, rfl, hm, he⟩
  · apply smaller_of_lt
    rw [unpack_two, unpack_infinity, hinf]
  · by_cases hmore : -51 < e ∨ 2 ^ 52 < m
    · apply smaller_of_lt
      rw [unpack_two]
      rcases Int.lt_or_le e 972 with hmax | hmax
      · rw [unpack_pack hpos hm (by omega) hmax]
        change some ((compare (-51) e).then (compare (2 ^ 52) m)) = some .lt
        congr 1
        rw [Ordering.then_eq_lt, Int.compare_eq_lt, Int.compare_eq_eq, Nat.compare_eq_lt]
        omega
      · rw [unpack_pack_large hpos hmax, hinf]
    · obtain rfl : e = -51 := by omega
      obtain rfl : m = 2 ^ 52 := by
        have := hm.low
        omega
      have hpack : Float.Model.pack (.finite .positive (2 ^ 52) (-51) hpos) = (2 : Float).toModel := rfl
      rw [hpack]
      exact ite_self 2

theorem capped_eq_two {n : Nat} (hn : 4 ≤ n) : Weights.capped 0.5 n 2 = 2 := by
  have hlog : 2 ≤ n.log2 := (Nat.le_log2 (by omega)).2 hn
  have hreach : Reaches (n.log2 - 52) (Float.ofNat n).toModel.unpack := reaches_ofNat (by omega)
  have hhalf := (hreach.mul_pow (j := -53) (by omega)).1
  rw [← unpack_half] at hhalf
  exact smaller_two (hhalf.mono (by omega))

theorem capped_half (n : Nat) : Weights.capped 0.5 n 2 = Weights.capped 0.5 (min n 4) 2 := by
  rcases Nat.lt_or_ge n 4 with hn | hn
  · rw [Nat.min_eq_left (by omega)]
  · rw [Nat.min_eq_right hn, capped_eq_two hn, capped_eq_two (Nat.le_refl 4)]

theorem Issue.riskScore_default (i : Issue) : i.riskScore .default =
    Weights.default.ofSeverity i.severity + Weights.default.ofKind i.kind +
      Weights.capped 0.5 (min i.missing.length 4) 2 + Weights.capped 0.25 i.files.length 1 := by
  rw [← capped_half]
  rfl

theorem orderKey_inputLoss {i : Issue} (hkind : i.kind = .inputLoss) (hseverity : i.severity = .high)
    (hfiles : i.files.length = 2) : orderKey 7.5 ≤ orderKey (i.riskScore .default) := by
  have hall : ∀ k < 5, orderKey 7.5 ≤ orderKey (Weights.default.ofSeverity .high +
      Weights.default.ofKind .inputLoss + Weights.capped 0.5 k 2 + Weights.capped 0.25 2 1) := by decide +kernel
  rw [i.riskScore_default, hkind, hseverity, hfiles]
  exact hall _ (by omega)

theorem orderKey_crossAccess {i : Issue} (hkind : i.kind = .crossAccess) (hseverity : i.severity = .medium)
    (hfiles : i.files.length = 2) : orderKey (i.riskScore .default) ≤ orderKey 6 := by
  have hall : ∀ k < 5, orderKey (Weights.default.ofSeverity .medium +
      Weights.default.ofKind .crossAccess + Weights.capped 0.5 k 2 + Weights.capped 0.25 2 1) ≤ orderKey 6 := by
    decide +kernel
  rw [i.riskScore_default, hkind, hseverity, hfiles]
  exact hall _ (by omega)

theorem rank_eq_self {l : List Issue} (h : l.Pairwise fun a b => orderKey b.score ≤ orderKey a.score) :
    rank l = l := by
  apply List.mergeSort_of_pairwise
  simpa using h

end Granularity
