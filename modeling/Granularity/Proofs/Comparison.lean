import Granularity.Proofs.Score

/-!
Comparing doubles. Numbers compare as their bits do, read as a sign and a magnitude; the two zeros are
equal there and apart in the total order, and everything else that is equal has the same bits.
-/

namespace Granularity

open Float.Model Float.Model.UnpackedFloat

namespace Binary64

/-- The bits of a double as a magnitude with a sign. -/
def signedBits (x : Float) : Int :=
  if x.toBits.toNat < 2 ^ 63 then x.toBits.toNat else 2 ^ 63 - x.toBits.toNat

/-- A mantissa and an exponent as doubles hold them: below the least exponent there is none, and only
there a mantissa may be short. -/
structure IsHeld (m : Nat) (e : Int) : Prop where
  least : -1074 ≤ e
  short : m < 2 ^ 53
  normal : e = -1074 ∨ 2 ^ 52 ≤ m
  most : e ≤ 971

/-- The magnitude of the bits that hold a mantissa and an exponent. -/
def heldBits (m : Nat) (e : Int) : Int := (e + 1074) * 2 ^ 52 + m

theorem IsHeld.compare_eq {m n : Nat} {d e : Int} (hm : IsHeld m d) (hn : IsHeld n e) :
    (compare d e).then (compare m n) = compare (heldBits m d) (heldBits n e) := by
  have hm₁ := hm.least
  have hm₂ := hm.short
  have hm₃ := hm.normal
  have hn₁ := hn.least
  have hn₂ := hn.short
  have hn₃ := hn.normal
  simp only [heldBits]
  rcases Int.lt_trichotomy d e with h | rfl | h
  · rw [Int.compare_eq_lt.2 h, Int.compare_eq_lt.2 (by omega)]
    rfl
  · rw [Int.compare_eq_eq.2 rfl]
    rcases Nat.lt_trichotomy m n with h | rfl | h
    · rw [Nat.compare_eq_lt.2 h, Int.compare_eq_lt.2 (by omega)]
      rfl
    · rw [Nat.compare_eq_eq.2 rfl, Int.compare_eq_eq.2 rfl]
      rfl
    · rw [Nat.compare_eq_gt.2 h, Int.compare_eq_gt.2 (by omega)]
      rfl
  · rw [Int.compare_eq_gt.2 h, Int.compare_eq_gt.2 (by omega)]
    rfl

theorem IsHeld.heldBits_pos {m : Nat} {e : Int} (h : IsHeld m e) (hm : 0 < m) : 0 < heldBits m e := by
  have := h.least
  simp only [heldBits]
  omega

theorem IsHeld.heldBits_lt {m : Nat} {e : Int} (h : IsHeld m e) : heldBits m e < 2047 * 2 ^ 52 := by
  have := h.short
  have := h.most
  simp only [heldBits]
  omega

/-- What a double that is a number is, with the bits it has. -/
inductive HasBits : UnpackedFloat → Int → Prop where
  | zero (s : Sign) : HasBits (.zero s) 0
  | positive {m : Nat} {e : Int} (h : 0 < m) : IsHeld m e → HasBits (.finite .positive m e h) (heldBits m e)
  | negative {m : Nat} {e : Int} (h : 0 < m) : IsHeld m e → HasBits (.finite .negative m e h) (-heldBits m e)
  | infinity : HasBits (.infinity .positive) (2047 * 2 ^ 52)
  | negInfinity : HasBits (.infinity .negative) (-(2047 * 2 ^ 52))

theorem swap_compare (a b : Int) : (compare a b).swap = compare (-a) (-b) := by
  rw [Int.compare_swap]
  rcases Int.lt_trichotomy a b with h | rfl | h
  · rw [Int.compare_eq_gt.2 h, Int.compare_eq_gt.2 (by omega)]
  · rw [Int.compare_eq_eq.2 rfl, Int.compare_eq_eq.2 rfl]
  · rw [Int.compare_eq_lt.2 h, Int.compare_eq_lt.2 (by omega)]

theorem HasBits.compare_eq {u v : UnpackedFloat} {j k : Int} (hu : HasBits u j) (hv : HasBits v k) :
    u.compare v = some (compare j k) := by
  have hlt {a b : Int} (h : a < b) : some Ordering.lt = some (compare a b) := by rw [Int.compare_eq_lt.2 h]
  have hgt {a b : Int} (h : b < a) : some Ordering.gt = some (compare a b) := by rw [Int.compare_eq_gt.2 h]
  have heq (a : Int) : some Ordering.eq = some (compare a a) := by rw [Int.compare_eq_eq.2 rfl]
  cases hu with
  | zero s =>
    cases hv with
    | zero s' => exact heq 0
    | positive h hn =>
      have := hn.heldBits_pos h
      exact hlt (by omega)
    | negative h hn =>
      have := hn.heldBits_pos h
      exact hgt (by omega)
    | infinity => exact hlt (by omega)
    | negInfinity => exact hgt (by omega)
  | positive h hm =>
    have hpos := hm.heldBits_pos h
    have hmost := hm.heldBits_lt
    cases hv with
    | zero s' => exact hgt (by omega)
    | positive h' hn => exact congrArg some (hm.compare_eq hn)
    | negative h' hn =>
      have := hn.heldBits_pos h'
      exact hgt (by omega)
    | infinity => exact hlt (by omega)
    | negInfinity => exact hgt (by omega)
  | negative h hm =>
    have hpos := hm.heldBits_pos h
    have hmost := hm.heldBits_lt
    cases hv with
    | zero s' => exact hlt (by omega)
    | positive h' hn =>
      have := hn.heldBits_pos h'
      exact hlt (by omega)
    | negative h' hn =>
      rw [← swap_compare, ← hm.compare_eq hn]
      rfl
    | infinity => exact hlt (by omega)
    | negInfinity => exact hgt (by omega)
  | infinity =>
    cases hv with
    | zero s' => exact hgt (by omega)
    | positive h' hn =>
      have := hn.heldBits_lt
      exact hgt (by omega)
    | negative h' hn =>
      have := hn.heldBits_pos h'
      exact hgt (by omega)
    | infinity => exact heq _
    | negInfinity => exact hgt (by omega)
  | negInfinity =>
    cases hv with
    | zero s' => exact hlt (by omega)
    | positive h' hn =>
      have := hn.heldBits_pos h'
      exact hlt (by omega)
    | negative h' hn =>
      have := hn.heldBits_lt
      exact hlt (by omega)
    | infinity => exact hlt (by omega)
    | negInfinity => exact heq _

theorem toNat_unpackMantissa (b : BitVec 64) : (@unpackMantissa .binary64 b).toNat = b.toNat % 2 ^ 52 := by
  simp [unpackMantissa, BitVec.extractLsb, BitVec.extractLsb']

theorem toNat_unpackExponent (b : BitVec 64) : (@unpackExponent .binary64 b).toNat = b.toNat / 2 ^ 52 % 2 ^ 11 := by
  simp [unpackExponent, BitVec.extractLsb, BitVec.extractLsb', Nat.shiftRight_eq_div_pow]

theorem toNat_unpackSign (b : BitVec 64) : (@unpackSign .binary64 b).toNat = b.toNat / 2 ^ 63 := by
  have hlow : b.toNat / 2 ^ 63 < 2 := by
    have := b.isLt
    omega
  have hsign : @unpackSign .binary64 b = b.extractLsb 63 63 := rfl
  simpa [hsign, BitVec.extractLsb, BitVec.extractLsb', Nat.shiftRight_eq_div_pow] using Nat.mod_eq_of_lt hlow

theorem sign_eq (b : BitVec 64) :
    Sign.ofBitVec (@unpackSign .binary64 b) = if b.toNat < 2 ^ 63 then .positive else .negative := by
  have hzero : @unpackSign .binary64 b = 0#1 ↔ b.toNat < 2 ^ 63 := by
    rw [← BitVec.toNat_inj, toNat_unpackSign, BitVec.toNat_ofNat]
    omega
  simp only [Sign.ofBitVec, hzero]

theorem hasBits_infinity (s : Sign) : HasBits (.infinity s) (s.apply (2047 * 2 ^ 52)) := by
  cases s with
  | negative => exact .negInfinity
  | positive => exact .infinity

theorem hasBits_finite (s : Sign) {m : Nat} {e : Int} (h : 0 < m) (hm : IsHeld m e) :
    HasBits (.finite s m e h) (s.apply (heldBits m e)) := by
  cases s with
  | negative => exact .negative h hm
  | positive => exact .positive h hm

section Bits

variable {b : BitVec 64}

theorem hasBits_largest (hall : @unpackExponent .binary64 b = -1#11) (hzero : @unpackMantissa .binary64 b = 0#52) :
    HasBits (UnpackedFloat.unpack .binary64 b)
      ((Sign.ofBitVec (@unpackSign .binary64 b)).apply (b.toNat % 2 ^ 63 : Nat)) := by
  have hmost : b.toNat % 2 ^ 63 = 2047 * 2 ^ 52 := by
    have hexponent : b.toNat / 2 ^ 52 % 2 ^ 11 = 2047 := by rw [← toNat_unpackExponent, hall]; rfl
    have hmantissa : b.toNat % 2 ^ 52 = 0 := by rw [← toNat_unpackMantissa, hzero]; rfl
    omega
  rw [unpack_special hall, if_pos hzero, hmost]
  exact hasBits_infinity _

theorem hasBits_least (hleast : @unpackExponent .binary64 b = 0#11) :
    HasBits (UnpackedFloat.unpack .binary64 b)
      ((Sign.ofBitVec (@unpackSign .binary64 b)).apply (b.toNat % 2 ^ 63 : Nat)) := by
  have hlt := b.isLt
  have hmantissa := toNat_unpackMantissa b
  have hexponent := toNat_unpackExponent b
  have hfield : b.toNat / 2 ^ 52 % 2 ^ 11 = 0 := by rw [← hexponent, hleast]; rfl
  rw [unpack_small hleast]
  by_cases hzero : @unpackMantissa .binary64 b = 0#52
  · rw [dif_pos hzero]
    have hnone : b.toNat % 2 ^ 63 = 0 := by
      have : b.toNat % 2 ^ 52 = 0 := by rw [← hmantissa, hzero]; rfl
      omega
    rw [hnone]
    cases Sign.ofBitVec (@unpackSign .binary64 b) <;> exact .zero _
  · rw [dif_neg hzero]
    -- a number below the normal ones has the least exponent, and its mantissa is what is stored
    have hheld : heldBits (@unpackMantissa .binary64 b).toNat (-1074) = (b.toNat % 2 ^ 63 : Nat) := by
      rw [heldBits]
      omega
    rw [← hheld]
    exact hasBits_finite _ _ ⟨by omega, by omega, by omega, by omega⟩

theorem hasBits_normal (hall : @unpackExponent .binary64 b ≠ -1#11) (hleast : @unpackExponent .binary64 b ≠ 0#11) :
    HasBits (UnpackedFloat.unpack .binary64 b)
      ((Sign.ofBitVec (@unpackSign .binary64 b)).apply (b.toNat % 2 ^ 63 : Nat)) := by
  have hlt := b.isLt
  have hmantissa := toNat_unpackMantissa b
  have hexponent := toNat_unpackExponent b
  have himplicit := toNat_implicit (@unpackMantissa .binary64 b)
  have hpos : (@unpackExponent .binary64 b).toNat ≠ 0 := fun h => hleast (BitVec.eq_of_toNat_eq h)
  have hless : (@unpackExponent .binary64 b).toNat ≠ 2047 := fun h => hall (BitVec.eq_of_toNat_eq h)
  have hheld : heldBits (1#1 ++ @unpackMantissa .binary64 b).toNat
      ((@unpackExponent .binary64 b).toNat - (1023 + 52)) = (b.toNat % 2 ^ 63 : Nat) := by
    rw [heldBits, himplicit]
    omega
  rw [unpack_normal hall hleast, ← hheld]
  exact hasBits_finite _ _ ⟨by omega, by omega, by omega, by omega⟩

theorem hasBits_of_isNaN (h : (UnpackedFloat.unpack .binary64 b).isNaN = false) :
    HasBits (UnpackedFloat.unpack .binary64 b)
      ((Sign.ofBitVec (@unpackSign .binary64 b)).apply (b.toNat % 2 ^ 63 : Nat)) := by
  by_cases hall : @unpackExponent .binary64 b = -1#11
  · by_cases hzero : @unpackMantissa .binary64 b = 0#52
    · exact hasBits_largest hall hzero
    · rw [unpack_special hall, if_neg hzero] at h
      cases h
  · by_cases hleast : @unpackExponent .binary64 b = 0#11
    · exact hasBits_least hleast
    · exact hasBits_normal hall hleast

end Bits

theorem hasBits_unpack {x : Float} (h : x.isNaN = false) : HasBits x.toModel.unpack (signedBits x) := by
  obtain ⟨b, hb⟩ : ∃ b, x.toModel.toBits.toBitVec = b := ⟨_, rfl⟩
  have hbits : x.toBits.toNat = b.toNat := by
    rw [← hb]
    rfl
  have hunpack : x.toModel.unpack = UnpackedFloat.unpack .binary64 b := by
    rw [← hb]
    rfl
  have hsigned : signedBits x = (Sign.ofBitVec (@unpackSign .binary64 b)).apply (b.toNat % 2 ^ 63 : Nat) := by
    have hlt := b.isLt
    rw [signedBits, hbits, sign_eq]
    split <;> simp only [Sign.apply] <;> omega
  change x.toModel.unpack.isNaN = false at h
  rw [hunpack] at h
  rw [hsigned, hunpack]
  exact hasBits_of_isNaN h

theorem compare_unpack {x y : Float} (hx : x.isNaN = false) (hy : y.isNaN = false) :
    x.toModel.unpack.compare y.toModel.unpack = some (compare (signedBits x) (signedBits y)) :=
  (hasBits_unpack hx).compare_eq (hasBits_unpack hy)

theorem le_iff {x y : Float} (hx : x.isNaN = false) (hy : y.isNaN = false) :
    x ≤ y ↔ signedBits x ≤ signedBits y := by
  change decide (x.toModel.unpack.le y.toModel.unpack = true) = true ↔ _
  rw [decide_eq_true_eq, UnpackedFloat.le, compare_unpack hx hy, Option.any_some, Int.isLE_compare]

theorem lt_iff {x y : Float} (hx : x.isNaN = false) (hy : y.isNaN = false) :
    x < y ↔ signedBits x < signedBits y := by
  change decide (x.toModel.unpack.lt y.toModel.unpack = true) = true ↔ _
  rw [decide_eq_true_eq, UnpackedFloat.lt, compare_unpack hx hy, beq_iff_eq, Option.some.injEq, Int.compare_eq_lt]

theorem beq_iff {x y : Float} (hx : x.isNaN = false) (hy : y.isNaN = false) :
    (x == y) = true ↔ signedBits x = signedBits y := by
  change (x.toModel.unpack.compare y.toModel.unpack == some .eq) = true ↔ _
  rw [compare_unpack hx hy, beq_iff_eq, Option.some.injEq, Int.compare_eq_eq]

theorem not_isNaN_of_le {x y : Float} (h : x ≤ y) : x.isNaN = false ∧ y.isNaN = false := by
  change decide (x.toModel.unpack.le y.toModel.unpack = true) = true at h
  rw [decide_eq_true_eq, UnpackedFloat.le] at h
  change x.toModel.unpack.isNaN = false ∧ y.toModel.unpack.isNaN = false
  cases hx : x.toModel.unpack with
  | notANumber =>
    rw [hx] at h
    cases y.toModel.unpack <;> cases h
  | _ =>
    cases hy : y.toModel.unpack with
    | notANumber =>
      rw [hx, hy] at h
      cases h
    | _ => exact ⟨rfl, rfl⟩

theorem le_trans {x y z : Float} (hxy : x ≤ y) (hyz : y ≤ z) : x ≤ z := by
  obtain ⟨hx, hy⟩ := not_isNaN_of_le hxy
  obtain ⟨-, hz⟩ := not_isNaN_of_le hyz
  rw [le_iff hx hy] at hxy
  rw [le_iff hy hz] at hyz
  rw [le_iff hx hz]
  omega

/-- Not below zero: a zero of either sign, or positive. -/
def IsNonneg : UnpackedFloat → Prop
  | .zero _ => True
  | .finite .positive _ _ _ => True
  | .infinity .positive => True
  | _ => False

theorem isNonneg_iff {x : Float} : IsNonneg x.toModel.unpack ↔ 0 ≤ x := by
  have hzero : (0 : Float).toModel.unpack = .zero .positive := rfl
  change _ ↔ decide ((0 : Float).toModel.unpack.le x.toModel.unpack = true) = true
  rw [decide_eq_true_eq, hzero, UnpackedFloat.le]
  cases x.toModel.unpack with
  | notANumber => exact iff_of_false id Bool.false_ne_true
  | zero s => exact iff_of_true trivial rfl
  | finite s m e h =>
    cases s with
    | positive => exact iff_of_true trivial rfl
    | negative => exact iff_of_false id Bool.false_ne_true
  | infinity s =>
    cases s with
    | positive => exact iff_of_true trivial rfl
    | negative => exact iff_of_false id Bool.false_ne_true

theorem isNaN_of_nonneg {x : Float} (h : 0 ≤ x) : x.isNaN = false :=
  (not_isNaN_of_le h).2

theorem IsNonneg.cases {u : UnpackedFloat} (h : IsNonneg u) :
    (∃ s, u = .zero s) ∨ (∃ m e hm, u = .finite .positive m e hm) ∨ u = .infinity .positive := by
  cases u with
  | notANumber => exact h.elim
  | zero s => exact .inl ⟨s, rfl⟩
  | finite s m e hm =>
    cases s with
    | positive => exact .inr (.inl ⟨m, e, hm, rfl⟩)
    | negative => exact h.elim
  | infinity s =>
    cases s with
    | positive => exact .inr (.inr rfl)
    | negative => exact h.elim

theorem isNonneg_dite {c : Prop} [Decidable c] {u : c → UnpackedFloat} {v : ¬ c → UnpackedFloat}
    (hu : ∀ h, IsNonneg (u h)) (hv : ∀ h, IsNonneg (v h)) : IsNonneg (dite c u v) := by
  by_cases h : c
  · rw [dif_pos h]
    exact hu h
  · rw [dif_neg h]
    exact hv h

theorem isNonneg_round (spec : Float.Model.Format) (m : Nat) (e : Int) (a : Accuracy) :
    IsNonneg (roundWithAccuracy spec .positive m e a) := by
  rw [roundWithAccuracy]
  exact isNonneg_dite (fun _ => trivial) fun _ => trivial

theorem isNonneg_normalize (spec : Float.Model.Format) (m n : Nat) (e : Int) :
    IsNonneg (UnpackedFloat.normalize spec (m + n) e .positive) := by
  simp only [UnpackedFloat.normalize]
  split
  · next h =>
    rw [Int.compare_eq_lt] at h
    omega
  · trivial
  · exact isNonneg_round ..

theorem IsNonneg.add {u v : UnpackedFloat} (spec : Float.Model.Format) (hu : IsNonneg u) (hv : IsNonneg v) :
    IsNonneg (UnpackedFloat.add spec u v) := by
  rcases hu.cases with ⟨s, rfl⟩ | ⟨m, e, hm, rfl⟩ | rfl
  · rcases hv.cases with ⟨s', rfl⟩ | ⟨n, d, hn, rfl⟩ | rfl
    · cases s <;> cases s' <;> trivial
    · trivial
    · trivial
  · rcases hv.cases with ⟨s', rfl⟩ | ⟨n, d, hn, rfl⟩ | rfl
    · trivial
    · exact isNonneg_normalize ..
    · trivial
  · rcases hv.cases with ⟨s', rfl⟩ | ⟨n, d, hn, rfl⟩ | rfl <;> trivial

theorem IsNonneg.mul {u v : UnpackedFloat} (spec : Float.Model.Format) (hu : IsNonneg u) (hv : IsNonneg v) :
    UnpackedFloat.mul spec u v = .notANumber ∨ IsNonneg (UnpackedFloat.mul spec u v) := by
  rcases hu.cases with ⟨s, rfl⟩ | ⟨m, e, hm, rfl⟩ | rfl
  · rcases hv.cases with ⟨s', rfl⟩ | ⟨n, d, hn, rfl⟩ | rfl
    · exact .inr trivial
    · exact .inr trivial
    · exact .inl rfl
  · rcases hv.cases with ⟨s', rfl⟩ | ⟨n, d, hn, rfl⟩ | rfl
    · exact .inr trivial
    · exact .inr (isNonneg_round ..)
    · exact .inr trivial
  · rcases hv.cases with ⟨s', rfl⟩ | ⟨n, d, hn, rfl⟩ | rfl
    · exact .inl rfl
    · exact .inr trivial
    · exact .inr trivial

theorem isNonneg_components {e : BitVec 11} (he : e ≠ -1#11) (m : BitVec 52) :
    IsNonneg (UnpackedFloat.unpack .binary64 (packComponents .binary64 .positive e m)) := by
  have hexponent : unpackExponent (packComponents .binary64 .positive e m) = e := unpackExponent_packComponents
  by_cases hleast : e = 0#11
  · rw [unpack_small (hexponent.trans hleast), unpackSign_packComponents, ofBitVec_toBitVec]
    exact isNonneg_dite (fun _ => trivial) fun _ => trivial
  · rw [unpack_normal (by rwa [hexponent]) (by rwa [hexponent]), unpackSign_packComponents, ofBitVec_toBitVec]
    trivial

theorem IsNonneg.unpack_pack {u : UnpackedFloat} (h : IsNonneg u) : IsNonneg (Float.Model.pack u).unpack := by
  rcases h.cases with ⟨s, rfl⟩ | ⟨m, e, hm, rfl⟩ | rfl
  · cases s <;> trivial
  · change IsNonneg (UnpackedFloat.unpack .binary64 (UnpackedFloat.pack .binary64 (.finite .positive m e hm)))
    rw [pack_finite]
    split
    · trivial
    · next hfits =>
      split
      · refine isNonneg_components (fun hall => ?_) _
        have hmost := congrArg BitVec.toNat hall
        rw [BitVec.toNat_ofNat] at hmost
        change _ = 2047 at hmost
        omega
      · exact isNonneg_components (by decide) _
  · trivial

theorem add_nonneg {x y : Float} (hx : 0 ≤ x) (hy : 0 ≤ y) : 0 ≤ x + y :=
  isNonneg_iff.1 ((isNonneg_iff.2 hx).add .binary64 (isNonneg_iff.2 hy)).unpack_pack

theorem mul_nonneg {x y : Float} (hx : 0 ≤ x) (hy : 0 ≤ y) : (x * y).isNaN = true ∨ 0 ≤ x * y := by
  have hmul : (x * y).toModel.unpack =
      (Float.Model.pack (UnpackedFloat.mul .binary64 x.toModel.unpack y.toModel.unpack)).unpack := rfl
  rcases (isNonneg_iff.2 hx).mul .binary64 (isNonneg_iff.2 hy) with h | h
  · left
    change (x * y).toModel.unpack.isNaN = true
    rw [hmul, h]
    rfl
  · right
    rw [← isNonneg_iff, hmul]
    exact h.unpack_pack

theorem ofNat_nonneg (n : Nat) : 0 ≤ Float.ofNat n := by
  rw [← isNonneg_iff]
  by_cases hn : n = 0
  · subst hn
    exact isNonneg_iff.2 (by decide +kernel)
  · rcases reaches_ofNat hn with h | ⟨m, e, hm, h, -, -⟩
    · rw [h]
      trivial
    · rw [h]
      trivial

theorem smaller_nonneg {x y : Float} (hx : x.isNaN = true ∨ 0 ≤ x) (hy : 0 ≤ y) : 0 ≤ Weights.smaller x y := by
  simp only [Weights.smaller]
  split
  · exact hy
  · next h =>
    refine hx.resolve_left fun hnan => h ?_
    rw [hnan, Bool.true_or]

end Binary64

open Binary64

theorem orderKey_eq {x : Float} (h : x.isNaN = false) :
    orderKey x = if x.toBits.toNat < 2 ^ 63 then signedBits x else signedBits x - 1 := by
  simp only [orderKey, h, signedBits]
  split
  · simp_all
  · split <;> omega

theorem signedBits_le_of_orderKey_le {x y : Float} (hx : x.isNaN = false) (hy : y.isNaN = false)
    (h : orderKey x ≤ orderKey y) : signedBits x ≤ signedBits y := by
  rw [orderKey_eq hx, orderKey_eq hy] at h
  simp only [signedBits] at h ⊢
  split at h <;> split at h <;> split <;> omega

theorem orderKey_eq_iff {x y : Float} (hx : x.isNaN = false) (hy : y.isNaN = false) (hne : signedBits y ≠ 0) :
    orderKey x = orderKey y ↔ signedBits x = signedBits y := by
  rw [orderKey_eq hx, orderKey_eq hy]
  simp only [signedBits] at hne ⊢
  split at hne <;> split <;> omega

end Granularity
