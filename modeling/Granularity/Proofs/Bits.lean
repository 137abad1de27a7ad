import Granularity.Decimal.Binary
import Granularity.Proofs.Comparison

/-!
Bits and numbers. The bits of a number that is neither zero nor infinite fix its mantissa and exponent, and these fix
its bits, so that two such doubles with the same mantissa, exponent and sign are one double.
-/

namespace Granularity

open Float.Model Float.Model.UnpackedFloat Decimal

namespace Binary64

section

variable {s : Sign} {m : ℕ} {e : ℤ}

theorem IsHeld.eq_of_heldBits {n : ℕ} {d : ℤ} (hm : IsHeld m e) (hn : IsHeld n d) (h : heldBits m e = heldBits n d) :
    m = n ∧ e = d := by
  have hm₁ := hm.least
  have hm₂ := hm.short
  have hm₃ := hm.normal
  have hn₁ := hn.least
  have hn₂ := hn.short
  have hn₃ := hn.normal
  simp only [heldBits] at h
  omega

theorem HasBits.eq_finite {u : UnpackedFloat} (hm : 0 < m) (hheld : IsHeld m e)
    (h : HasBits u (s.apply (heldBits m e))) : u = .finite s m e hm := by
  have hpos := hheld.heldBits_pos hm
  have hmost := hheld.heldBits_lt
  obtain ⟨k, hk⟩ : ∃ k, s.apply (heldBits m e) = k := ⟨_, rfl⟩
  rw [hk] at h
  cases s with
  | positive =>
    change heldBits m e = k at hk
    cases h with
    | zero s' => omega
    | positive h' hn =>
      obtain ⟨rfl, rfl⟩ := hheld.eq_of_heldBits hn hk
      rfl
    | negative h' hn =>
      have := hn.heldBits_pos h'
      omega
    | infinity => omega
    | negInfinity => omega
  | negative =>
    change -heldBits m e = k at hk
    cases h with
    | zero s' => omega
    | positive h' hn =>
      have := hn.heldBits_pos h'
      omega
    | negative h' hn =>
      obtain ⟨rfl, rfl⟩ := hheld.eq_of_heldBits hn (by omega)
      rfl
    | infinity => omega
    | negInfinity => omega

theorem isNaN_of_lt {x : Float} (h : x.toBits.toNat % 2 ^ 63 < 2047 * 2 ^ 52) : x.isNaN = false := by
  obtain ⟨b, hb⟩ : ∃ b, x.toModel.toBits.toBitVec = b := ⟨_, rfl⟩
  have hbits : x.toBits.toNat = b.toNat := by
    rw [← hb]
    rfl
  rw [hbits] at h
  change (UnpackedFloat.unpack .binary64 x.toModel.toBits.toBitVec).isNaN = false
  rw [hb]
  have hall : @unpackExponent .binary64 b ≠ -1#11 := by
    intro hall
    have hmost : b.toNat / 2 ^ 52 % 2 ^ 11 = 2047 := by rw [← toNat_unpackExponent, hall]; rfl
    omega
  by_cases hleast : @unpackExponent .binary64 b = 0#11
  · rw [unpack_small hleast]
    by_cases hzero : @unpackMantissa .binary64 b = 0#52
    · rw [dif_pos hzero]
      rfl
    · rw [dif_neg hzero]
      rfl
  · rw [unpack_normal hall hleast]
    rfl

theorem signedBits_mod (x : Float) : (x.toBits.toNat % 2 ^ 63 : ℕ) = |signedBits x| := by
  have hlt : x.toBits.toNat < 2 ^ 64 := x.toBits.toNat_lt
  rw [signedBits]
  split
  · rw [abs_of_nonneg (by omega)]
    omega
  · rw [abs_of_nonpos (by omega)]
    omega

theorem unpack_of_signedBits {x : Float} (hm : 0 < m) (hheld : IsHeld m e)
    (h : signedBits x = s.apply (heldBits m e)) : x.toModel.unpack = .finite s m e hm := by
  have hpos := hheld.heldBits_pos hm
  have hmost := hheld.heldBits_lt
  have hnan : x.isNaN = false := by
    have habs : |s.apply (heldBits m e)| = heldBits m e := by
      cases s with
      | positive => exact abs_of_pos hpos
      | negative => exact (abs_neg _).trans (abs_of_pos hpos)
    have hmod := signedBits_mod x
    rw [h, habs] at hmod
    apply isNaN_of_lt
    omega
  have hbits := hasBits_unpack hnan
  rw [h] at hbits
  exact hbits.eq_finite hm hheld

theorem not_isNaN_of_unpack {x : Float} {hm : 0 < m} (h : x.toModel.unpack = .finite s m e hm) : x.isNaN = false := by
  change x.toModel.unpack.isNaN = false
  rw [h]
  rfl

theorem isHeld_unpack {x : Float} {hm : 0 < m} (h : x.toModel.unpack = .finite s m e hm) :
    IsHeld m e ∧ signedBits x = s.apply (heldBits m e) := by
  have hbits := hasBits_unpack (not_isNaN_of_unpack h)
  rw [h] at hbits
  generalize signedBits x = k at hbits
  cases hbits with
  | positive _ hheld => exact ⟨hheld, rfl⟩
  | negative _ hheld => exact ⟨hheld, rfl⟩

theorem eq_of_bits {x y : Float} (h : x.toBits.toNat = y.toBits.toNat) : x = y := by
  have hbits : x.toBits = y.toBits := UInt64.toNat_inj.1 h
  obtain ⟨⟨b, hb⟩⟩ := x
  obtain ⟨⟨c, hc⟩⟩ := y
  obtain rfl : b = c := hbits
  rfl

theorem eq_of_unpack {x y : Float} {hm : 0 < m} (hx : x.toModel.unpack = .finite s m e hm)
    (hy : y.toModel.unpack = .finite s m e hm) : x = y := by
  obtain ⟨hheld, hxb⟩ := isHeld_unpack hx
  obtain ⟨-, hyb⟩ := isHeld_unpack hy
  have hpos := hheld.heldBits_pos hm
  apply eq_of_bits
  rw [signedBits] at hxb hyb
  cases s with
  | positive =>
    change _ = heldBits m e at hxb hyb
    split at hxb <;> split at hyb <;> omega
  | negative =>
    change _ = -heldBits m e at hxb hyb
    split at hxb <;> split at hyb <;> omega

theorem unpack_pack_held (hm : 0 < m) (hheld : IsHeld m e) :
    (Float.Model.pack (.finite s m e hm)).unpack = .finite s m e hm := by
  have hmost := hheld.most
  by_cases hnormal : 2 ^ 52 ≤ m
  · exact unpack_pack hm ⟨hnormal, hheld.short⟩ hheld.least (by omega)
  · obtain rfl : e = -1074 := hheld.normal.resolve_right hnormal
    have hlog : m.log2 < 52 := (Nat.log2_lt hm.ne').2 (by omega)
    have hpack : UnpackedFloat.pack .binary64 (.finite s m (-1074) hm) =
        packComponents .binary64 s 0#11 (BitVec.ofNat 52 m) := by
      rw [pack_finite, if_neg (by decide), if_neg (by omega)]
    have hmantissa : (BitVec.ofNat 52 m).toNat = m := by
      rw [BitVec.toNat_ofNat, Nat.mod_eq_of_lt (by omega)]
    have hne : BitVec.ofNat 52 m ≠ 0#52 := by
      intro hzero
      have : m = 0 := by rw [← hmantissa, hzero]; rfl
      omega
    have hfield : unpackMantissa (packComponents .binary64 s 0#11 (BitVec.ofNat 52 m)) = BitVec.ofNat 52 m :=
      unpackMantissa_packComponents
    rw [← hfield] at hmantissa hne
    change UnpackedFloat.unpack .binary64 (UnpackedFloat.pack .binary64 (.finite s m (-1074) hm)) = _
    rw [hpack]
    refine (unpack_small unpackExponent_packComponents).trans ((dif_neg hne).trans (finite_congr ?_ hmantissa rfl))
    rw [unpackSign_packComponents, ofBitVec_toBitVec]

/-- A double that is packed from the mantissa and the exponent of another one is that one. -/
theorem eq_of_toModel {x y : Float} {hm : 0 < m} (hx : x.toModel.unpack = .finite s m e hm)
    (hy : y.toModel = Float.Model.pack (.finite s m e hm)) : y = x := by
  refine eq_of_unpack ?_ hx
  rw [hy, unpack_pack_held hm (isHeld_unpack hx).1]

theorem neg_eq_of_unpack {x y : Float} {hm : 0 < m} (hx : x.toModel.unpack = .finite .negative m e hm)
    (hy : y.toModel.unpack = .finite .positive m e hm) : -y = x := by
  apply eq_of_toModel hx
  change Float.Model.pack y.toModel.unpack.neg = _
  rw [hy]
  rfl

end

theorem lt_of_isFinite {x : Float} (h : x.isFinite = true) : x.toBits.toNat % 2 ^ 63 < 2047 * 2 ^ 52 := by
  obtain ⟨b, hb⟩ : ∃ b, x.toModel.toBits.toBitVec = b := ⟨_, rfl⟩
  have hbits : x.toBits.toNat = b.toNat := by
    rw [← hb]
    rfl
  change (UnpackedFloat.unpack .binary64 x.toModel.toBits.toBitVec).isFinite = true at h
  rw [hb] at h
  rw [hbits]
  by_contra hmost
  have hall : @unpackExponent .binary64 b = -1#11 := by
    apply BitVec.eq_of_toNat_eq
    rw [toNat_unpackExponent]
    change _ = 2047
    omega
  rw [unpack_special hall] at h
  split at h <;> cases h

theorem parts_of_isFinite {x : Float} (h : x.isFinite = true) : ∃ negative m e,
    Parts.ofFloat x = .finite negative ⟨m, e, decide (m = 2 ^ 52 ∧ -1074 < e)⟩ ∧ IsHeld m e ∧
      (x.toBits.toNat : ℤ) = (if negative = true then 2 ^ 63 else 0) + heldBits m e := by
  have hfinite := lt_of_isFinite h
  have hlt : x.toBits.toNat < 2 ^ 64 := x.toBits.toNat_lt
  rw [Parts.ofFloat]
  generalize x.toBits.toNat = b at *
  have hsign : (if (b / 0x8000000000000000 == 1) = true then (2 : ℤ) ^ 63 else 0) = b / 2 ^ 63 * 2 ^ 63 := by
    simp only [beq_iff_eq]
    split <;> omega
  have hfield : ¬ b / 0x10000000000000 % 2048 = 2047 := by omega
  simp only [Parts.ofBits]
  rw [if_neg hfield]
  by_cases hleast : b / 0x10000000000000 % 2048 = 0
  · refine ⟨b / 0x8000000000000000 == 1, b % 0x10000000000000, -1074, ?_, ⟨by omega, by omega, .inl rfl, by omega⟩, ?_⟩
    · rw [if_pos hleast, decide_eq_false (by omega)]
    · rw [hsign, heldBits]
      omega
  · refine ⟨b / 0x8000000000000000 == 1, 0x10000000000000 + b % 0x10000000000000,
      ((b / 0x10000000000000 % 2048 : ℕ) : ℤ) - 1075, ?_, ⟨by omega, by omega, .inr (by omega), by omega⟩, ?_⟩
    · have hnarrow : (b % 0x10000000000000 == 0 && decide (1 < b / 0x10000000000000 % 2048)) =
          decide (0x10000000000000 + b % 0x10000000000000 = 2 ^ 52 ∧
            -1074 < ((b / 0x10000000000000 % 2048 : ℕ) : ℤ) - 1075) := by
        rw [Bool.eq_iff_iff, Bool.and_eq_true, beq_iff_eq, decide_eq_true_eq, decide_eq_true_eq]
        omega
      rw [if_neg hleast, hnarrow]
    · rw [hsign, heldBits]
      omega

end Binary64

end Granularity
