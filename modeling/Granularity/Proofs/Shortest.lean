import Granularity.Decimal.Layout
import Granularity.Proofs.Literals
import Mathlib.Data.List.TakeWhile
import Mathlib.Tactic.IntervalCases

/-!
The shortest digits of a double. Whatever the search stops at lies between the midpoints around the double: a
candidate because it was checked, and the last resort because seventeen digits behind the leading one are finer than
the doubles are. So every literal with the value of the digits is read as the double again.
-/

namespace Granularity

open Float.Model Decimal Binary64

namespace Decimal

theorem cast_pow_toNat {b : ℕ} (hb : 0 < b) (k : ℤ) :
    ((Nat.pow b k.toNat : ℕ) : ℚ) = b ^ k * (Nat.pow b (-k).toNat : ℕ) := by
  have hne : (b : ℚ) ≠ 0 := by exact_mod_cast hb.ne'
  have hsum : (k.toNat : ℤ) = k + (-k).toNat := by omega
  rw [Nat.pow_eq, Nat.pow_eq, Nat.cast_pow, Nat.cast_pow, ← zpow_natCast, ← zpow_natCast, hsum, zpow_add₀ hne]

theorem cast_order {a c : ℕ} {v w d : ℚ} (hd : 0 < d) (ha : (a : ℚ) = v * d) (hc : (c : ℚ) = w * d) :
    (a ≤ c ↔ v ≤ w) ∧ (a < c ↔ v < w) := by
  have hle : a ≤ c ↔ (a : ℚ) ≤ c := Nat.cast_le.symm
  have hlt : a < c ↔ (a : ℚ) < c := Nat.cast_lt.symm
  rw [hle, hlt, ha, hc]
  exact ⟨mul_le_mul_iff_left₀ hd, mul_lt_mul_iff_left₀ hd⟩

namespace Interval

/-- The midpoints around a double, over the denominator of the interval. -/
structure Surrounds (i : Interval) (m : ℕ) (e : ℤ) : Prop where
  den : 0 < i.den
  low : (i.low : ℚ) = (m - lowerHalf m e) * 2 ^ e * i.den
  mid : (i.mid : ℚ) = m * 2 ^ e * i.den
  high : (i.high : ℚ) = (m + 1 / 2) * 2 ^ e * i.den
  closed : i.closed = (m % 2 == 0)

end Interval

theorem Binary.interval_surrounds {m : ℕ} (hm : 0 < m) (e : ℤ) :
    (Binary.mk m e (decide (m = 2 ^ 52 ∧ -1074 < e))).interval.Surrounds m e := by
  have hup : ((Nat.pow 2 (e - 2).toNat : ℕ) : ℚ) = 2 ^ e / 4 * (Nat.pow 2 (2 - e).toNat : ℕ) := by
    rw [cast_pow_toNat (by decide), neg_sub, Nat.cast_ofNat, zpow_sub₀ (by norm_num)]
    norm_num
  constructor
  · exact Nat.pow_pos (by decide)
  · simp only [interval, lowerHalf, decide_eq_true_eq]
    rw [Nat.cast_mul, hup, Nat.cast_sub (by split <;> omega)]
    push_cast
    split <;> ring
  · simp only [interval]
    rw [Nat.cast_mul, hup]
    push_cast
    ring
  · simp only [interval]
    rw [Nat.cast_mul, hup]
    push_cast
    ring
  · rfl

namespace Interval

section

variable {i : Interval} {m : ℕ} {e : ℤ}

theorem ten_zpow_pos (k : ℤ) : (0 : ℚ) < 10 ^ k := zpow_pos (by norm_num) k

theorem Surrounds.nearest_of_contains (hi : i.Surrounds m e) {n : ℕ} {k : ℤ} (h : i.contains n k = true) :
    Nearest m e (n * 10 ^ k) := by
  have hten := cast_pow_toNat (b := 10) (by decide) k
  have hpos : (0 : ℚ) < i.den * (Nat.pow 10 (-k).toNat : ℕ) := by
    exact_mod_cast Nat.mul_pos hi.den (Nat.pow_pos (by decide))
  have hvalue : ((n * Nat.pow 10 k.toNat * i.den : ℕ) : ℚ) =
      n * 10 ^ k * (i.den * (Nat.pow 10 (-k).toNat : ℕ)) := by
    rw [Nat.cast_mul, Nat.cast_mul, hten]
    push_cast
    ring
  have hlow := cast_order hpos (a := i.low * Nat.pow 10 (-k).toNat)
    (by rw [Nat.cast_mul, hi.low, mul_assoc]) hvalue
  have hhigh := cast_order hpos hvalue (c := i.high * Nat.pow 10 (-k).toNat)
    (by rw [Nat.cast_mul, hi.high, mul_assoc])
  unfold contains at h
  simp only [hi.closed, beq_iff_eq] at h
  split at h
  · next heven =>
    rw [Bool.and_eq_true, decide_eq_true_eq, decide_eq_true_eq, hlow.1, hhigh.1] at h
    exact ⟨h.1, h.2, fun hodd => by omega⟩
  · rw [Bool.and_eq_true, decide_eq_true_eq, decide_eq_true_eq, hlow.2, hhigh.2] at h
    exact ⟨h.1.le, h.2.le, fun _ => h⟩

theorem contains_of_candidate? {n : ℕ} {k : ℤ} (h : i.candidate? k = some n) : i.contains n k = true := by
  unfold candidate? at h
  simp only at h
  split at h
  · next hc =>
    cases h
    exact hc
  · split at h
    · next hc =>
      cases h
      exact hc
    · split at h
      · next hc =>
        cases h
        exact hc
      · cases h

theorem nearest_of_close (hm : m < 2 ^ 53) {u t : ℚ} (ht : t * 10 ^ 17 ≤ m * 2 ^ e) (hlow : m * 2 ^ e ≤ u + t / 2)
    (hhigh : u ≤ m * 2 ^ e + t / 2) : Nearest m e u := by
  have hpos := two_zpow_pos e
  have hmant : (m : ℚ) ≤ 2 ^ 53 := by exact_mod_cast hm.le
  have hquarter : (1 : ℚ) / 4 ≤ lowerHalf m e := by
    unfold lowerHalf
    split <;> norm_num
  have hstep : t / 2 < 1 / 4 * 2 ^ e := by nlinarith
  have hbelow : (m - lowerHalf m e) * 2 ^ e < u := by nlinarith
  have habove : u < (m + 1 / 2) * 2 ^ e := by nlinarith
  exact ⟨hbelow.le, habove.le, fun _ => ⟨hbelow, habove⟩⟩

theorem Surrounds.roundDiv_close (hi : i.Surrounds m e) {k : ℤ} {n : ℕ}
    (hn : roundDiv (i.mid * Nat.pow 10 (-k).toNat) (i.den * Nat.pow 10 k.toNat) = n) :
    (m : ℚ) * 2 ^ e ≤ n * 10 ^ k + 10 ^ k / 2 ∧ (n : ℚ) * 10 ^ k ≤ m * 2 ^ e + 10 ^ k / 2 := by
  obtain ⟨hlow, hhigh⟩ := roundDiv_near (i.mid * Nat.pow 10 (-k).toNat)
    (Nat.mul_pos hi.den (Nat.pow_pos (n := k.toNat) (by decide : 0 < 10)))
  have hten := cast_pow_toNat (b := 10) (by decide) k
  have hpos : (0 : ℚ) < i.den * (Nat.pow 10 (-k).toNat : ℕ) := by
    exact_mod_cast Nat.mul_pos hi.den (Nat.pow_pos (by decide))
  rw [← Nat.pow_eq] at hlow hhigh
  rw [hn] at hlow hhigh
  have hlow' : (2 : ℚ) * (n * (i.den * (Nat.pow 10 k.toNat : ℕ))) ≤
      2 * (i.mid * (Nat.pow 10 (-k).toNat : ℕ)) + i.den * (Nat.pow 10 k.toNat : ℕ) := by exact_mod_cast hlow
  have hhigh' : (2 : ℚ) * (i.mid * (Nat.pow 10 (-k).toNat : ℕ)) ≤
      2 * (n * (i.den * (Nat.pow 10 k.toNat : ℕ))) + i.den * (Nat.pow 10 k.toNat : ℕ) := by exact_mod_cast hhigh
  rw [hten, hi.mid] at hlow' hhigh'
  push_cast at hlow' hhigh' hpos
  constructor
  · apply le_of_mul_le_mul_right _ hpos
    linarith
  · apply le_of_mul_le_mul_right _ hpos
    linarith

theorem Surrounds.leadingExponent_le (hi : i.Surrounds m e) (hm : 0 < m) :
    (10 : ℚ) ^ i.leadingExponent ≤ m * 2 ^ e := by
  have hden : (0 : ℚ) < i.den := by exact_mod_cast hi.den
  have hmid : i.mid ≠ 0 := by
    intro hzero
    have hpos : (0 : ℚ) < m * 2 ^ e * i.den := mul_pos (mul_pos (by exact_mod_cast hm) (two_zpow_pos e)) hden
    rw [← hi.mid, hzero] at hpos
    exact absurd hpos (by norm_num)
  unfold leadingExponent
  simp only
  split
  · next hle =>
    have hten := cast_pow_toNat (b := 10) (by decide) ((digitCount i.mid : ℤ) - digitCount i.den)
    have hpos : (0 : ℚ) < i.den * (Nat.pow 10 (-((digitCount i.mid : ℤ) - digitCount i.den)).toNat : ℕ) := by
      exact_mod_cast Nat.mul_pos hi.den (Nat.pow_pos (by decide))
    refine (cast_order hpos ?_ ?_).1.1 hle
    · rw [Nat.cast_mul, hten]
      push_cast
      ring
    · rw [Nat.cast_mul, hi.mid]
      ring
  · have hlow := (digitCount_bounds hmid).1
    have hhigh := (digitCount_bounds hi.den.ne').2
    have hsplit : (10 : ℚ) ^ ((digitCount i.mid : ℤ) - digitCount i.den - 1) * 10 ^ (digitCount i.den : ℤ) =
        10 ^ ((digitCount i.mid : ℤ) - 1) := by
      rw [← zpow_add₀ (by norm_num)]
      congr 1
      omega
    apply le_of_mul_le_mul_right _ hden
    rw [← hi.mid]
    refine le_trans (mul_le_mul_of_nonneg_left hhigh.le (ten_zpow_pos _).le) ?_
    rwa [hsplit]

theorem Surrounds.search_nearest (hi : i.Surrounds m e) (hm : m < 2 ^ 53) (steps : ℕ) (k : ℤ)
    (hfine : (10 : ℚ) ^ (k - steps) * 10 ^ 17 ≤ m * 2 ^ e) :
    Nearest m e ((i.search steps k).1 * 10 ^ (i.search steps k).2) := by
  induction steps generalizing k with
  | zero =>
    rw [Nat.cast_zero, sub_zero] at hfine
    obtain ⟨hlow, hhigh⟩ := hi.roundDiv_close (k := k) rfl
    exact nearest_of_close hm hfine hlow hhigh
  | succ steps ih =>
    rw [search]
    cases hc : i.candidate? k with
    | some n => exact hi.nearest_of_contains (contains_of_candidate? hc)
    | none =>
      apply ih
      rwa [show k - 1 - (steps : ℤ) = k - (steps + 1 : ℕ) by omega]

end

end Interval

theorem foldl_digits (ds : List Char) (n : ℕ) :
    ds.foldl (fun n c => n * 10 + (c.toNat - '0'.toNat)) n = n * 10 ^ ds.length + digitsValue ds := by
  induction ds generalizing n with
  | nil => simp [digitsValue]
  | cons c ds ih =>
    rw [digitsValue, List.foldl_cons, List.foldl_cons, ih, ih (0 * 10 + _), List.length_cons, Nat.pow_succ]
    ring

theorem digitsValue_append (a b : List Char) :
    digitsValue (a ++ b) = digitsValue a * 10 ^ b.length + digitsValue b := by
  rw [digitsValue, List.foldl_append, foldl_digits b]
  rfl

theorem digitsValue_zeros (n : ℕ) : digitsValue (zeros n) = 0 := by
  induction n with
  | zero => rfl
  | succ n ih =>
    have hsplit : zeros (n + 1) = zeros n ++ ['0'] := List.replicate_succ'
    rw [hsplit, digitsValue_append, ih]
    rfl

theorem digitsValue_toDigits (n : ℕ) : digitsValue (Nat.toDigits 10 n) = n := by
  have hread : digitsValue (Nat.toDigits 10 n) = Nat.ofDigitChars 10 (Nat.toDigits 10 n) 0 := by
    simp only [digitsValue, Nat.ofDigitChars, Nat.mul_comm]
  rw [hread, Nat.ofDigitChars_ten_toDigits]

theorem toDigits_head {n : ℕ} (hn : n ≠ 0) : (Nat.toDigits 10 n).head? ≠ some '0' := by
  induction n using Nat.strongRecOn with
  | ind n ih =>
    rcases Nat.lt_or_ge n 10 with hsmall | hlarge
    · rw [Nat.toDigits_of_lt_base hsmall]
      interval_cases n <;> first | contradiction | decide
    · rw [Nat.toDigits_of_base_le (by decide) hlarge, List.head?_append_of_ne_nil _ Nat.toDigits_ne_nil]
      exact ih (n / 10) (by omega) (by omega)

theorem stripZeros_append (ds : List Char) : ∃ j, ds = stripZeros ds ++ zeros j := by
  refine ⟨(ds.reverse.takeWhile (· == '0')).length, ?_⟩
  have hzeros : ds.reverse.takeWhile (· == '0') = zeros (ds.reverse.takeWhile (· == '0')).length := by
    rw [zeros, List.eq_replicate_iff]
    refine ⟨rfl, fun c hc => ?_⟩
    simpa using List.mem_takeWhile_imp hc
  have hsplit := congrArg List.reverse (List.takeWhile_append_dropWhile (p := (· == '0')) (l := ds.reverse))
  rw [List.reverse_append, List.reverse_reverse, hzeros, zeros, List.reverse_replicate] at hsplit
  exact hsplit.symm

/-- The number that digits and a point stand for. -/
def Digits.value (d : Digits) : ℚ :=
  digitsValue d.digits * 10 ^ (d.point - d.digits.length)

def Literal.value (l : Literal) : ℚ :=
  l.mantissa * 10 ^ l.exponent

/-- At least one digit, and no zero in front but for zero itself. -/
structure Digits.Proper (d : Digits) : Prop where
  nonempty : d.digits ≠ []
  digits : ∀ c ∈ d.digits, c.isDigit = true
  leading : d.digits.head? = some '0' → d = ⟨['0'], 1⟩

theorem stripped_proper {n : ℕ} (hn : n ≠ 0) (k : ℤ) :
    let d := Digits.mk (stripZeros (Nat.toDigits 10 n)) ((Nat.toDigits 10 n).length + k)
    d.Proper ∧ d.value = n * 10 ^ k := by
  obtain ⟨j, hj⟩ := stripZeros_append (Nat.toDigits 10 n)
  have hvalue := digitsValue_toDigits n
  have hlength := congrArg List.length hj
  rw [List.length_append, zeros, List.length_replicate] at hlength
  rw [hj, digitsValue_append, digitsValue_zeros, zeros, List.length_replicate, Nat.add_zero] at hvalue
  have hnonempty : stripZeros (Nat.toDigits 10 n) ≠ [] := by
    intro hnil
    rw [hnil] at hvalue
    exact hn (hvalue.symm.trans (Nat.zero_mul _))
  refine ⟨⟨hnonempty, fun c hc => ?_, fun hzero => ?_⟩, ?_⟩
  · apply Nat.isDigit_of_mem_toDigits (b := 10) (n := n) (by decide) (by decide)
    rw [hj]
    exact List.mem_append_left _ hc
  · have hhead := toDigits_head hn
    rw [hj, List.head?_append_of_ne_nil _ hnonempty] at hhead
    exact absurd hzero hhead
  · have hcast : (n : ℚ) = digitsValue (stripZeros (Nat.toDigits 10 n)) * 10 ^ j := by exact_mod_cast hvalue.symm
    rw [Digits.value, hlength, hcast, mul_assoc, ← zpow_natCast, ← zpow_add₀ (by norm_num)]
    congr 2
    push_cast
    ring

theorem Binary.shortest_nearest {m : ℕ} {e : ℤ} (hm : 0 < m) (hheld : IsHeld m e) :
    (Binary.mk m e (decide (m = 2 ^ 52 ∧ -1074 < e))).shortest.Proper ∧
      Nearest m e (Binary.mk m e (decide (m = 2 ^ 52 ∧ -1074 < e))).shortest.value := by
  have hi := interval_surrounds hm e
  obtain ⟨i, hinterval⟩ : ∃ i, (Binary.mk m e (decide (m = 2 ^ 52 ∧ -1074 < e))).interval = i := ⟨_, rfl⟩
  rw [hinterval] at hi
  have hfine : (10 : ℚ) ^ (i.leadingExponent - (17 : ℕ)) * 10 ^ 17 ≤ m * 2 ^ e := by
    rw [zpow_sub₀ (by norm_num), zpow_natCast, div_mul_cancel₀ _ (by norm_num)]
    exact hi.leadingExponent_le hm
  have hnearest := hi.search_nearest hheld.short 17 i.leadingExponent hfine
  have hshortest : (Binary.mk m e (decide (m = 2 ^ 52 ∧ -1074 < e))).shortest =
      ⟨stripZeros (Nat.toDigits 10 (i.search 17 i.leadingExponent).1),
        (Nat.toDigits 10 (i.search 17 i.leadingExponent).1).length + (i.search 17 i.leadingExponent).2⟩ := by
    rw [shortest, if_neg hm.ne', hinterval]
  generalize i.search 17 i.leadingExponent = found at hnearest hshortest
  have hne : found.1 ≠ 0 := by
    intro hzero
    have hpos := hnearest.pos_pow hm hheld
    rw [hzero, Nat.cast_zero, zero_mul] at hpos
    exact absurd hpos (two_zpow_pos _).not_ge
  obtain ⟨hproper, hvalue⟩ := stripped_proper hne found.2
  rw [hshortest]
  exact ⟨hproper, hvalue ▸ hnearest⟩

theorem Binary.shortest_proper {m : ℕ} {e : ℤ} (hheld : IsHeld m e) :
    (Binary.mk m e (decide (m = 2 ^ 52 ∧ -1074 < e))).shortest.Proper := by
  by_cases hm : m = 0
  · rw [shortest, if_pos hm]
    refine ⟨List.cons_ne_nil _ _, fun c hc => ?_, fun _ => rfl⟩
    rw [List.mem_singleton.1 hc]
    rfl
  · exact (shortest_nearest (Nat.pos_of_ne_zero hm) hheld).1

theorem Literal.toFloat_zero {l : Literal} (h : l.mantissa = 0) :
    l.toFloat = if l.negative = true then -0 else 0 := by
  rw [toFloat, h]
  rfl

theorem Literal.mantissa_of_value {l : Literal} {d : Digits} (h : l.value = d.value) :
    l.mantissa = 0 ↔ digitsValue d.digits = 0 := by
  have hleft := Interval.ten_zpow_pos l.exponent
  have hright := Interval.ten_zpow_pos (d.point - d.digits.length)
  rw [value, Digits.value] at h
  rw [← Nat.cast_eq_zero (R := ℚ), ← Nat.cast_eq_zero (R := ℚ) (n := digitsValue _)]
  constructor
  · intro hzero
    rw [hzero, zero_mul] at h
    exact (mul_eq_zero.1 h.symm).resolve_right hright.ne'
  · intro hzero
    rw [hzero, zero_mul] at h
    exact (mul_eq_zero.1 h).resolve_right hleft.ne'

/-- Every literal with the value of the shortest digits of a double is read as the double. -/
theorem Literal.toFloat_shortest {x : Float} {b : Binary} {l : Literal} (hx : x.isFinite = true)
    (hparts : Parts.ofFloat x = .finite l.negative b) (hvalue : l.value = b.shortest.value) : l.toFloat = x := by
  obtain ⟨negative, m, e, hparts', hheld, hbits⟩ := parts_of_isFinite hx
  obtain ⟨rfl, rfl⟩ : l.negative = negative ∧ b = ⟨m, e, decide (m = 2 ^ 52 ∧ -1074 < e)⟩ := by
    rw [hparts] at hparts'
    exact ⟨Parts.finite.inj hparts' |>.1, Parts.finite.inj hparts' |>.2⟩
  by_cases hm : m = 0
  · -- a zero keeps its sign
    obtain rfl : e = -1074 := hheld.normal.resolve_right (by omega)
    have hzero : l.mantissa = 0 := by
      rw [mantissa_of_value hvalue, Binary.shortest, if_pos hm]
      rfl
    rw [toFloat_zero hzero]
    rw [hm, heldBits] at hbits
    apply eq_of_bits
    split
    · next hneg =>
      rw [if_pos hneg] at hbits
      change 2 ^ 63 = x.toBits.toNat
      omega
    · next hneg =>
      rw [if_neg hneg] at hbits
      change 0 = x.toBits.toNat
      omega
  · have hpos : 0 < m := Nat.pos_of_ne_zero hm
    have hnearest := (Binary.shortest_nearest hpos hheld).2
    rw [← hvalue] at hnearest
    have hheldPos := hheld.heldBits_pos hpos
    have hheldLt := hheld.heldBits_lt
    have hunpack : x.toModel.unpack = .finite l.sign m e hpos := by
      apply unpack_of_signedBits hpos hheld
      rw [signedBits, sign]
      split at hbits
      · next hneg =>
        rw [if_pos hneg, if_neg (by omega)]
        change _ = -heldBits m e
        omega
      · next hneg =>
        rw [if_neg hneg, if_pos (by omega)]
        change _ = heldBits m e
        omega
    have hmantissa : l.mantissa ≠ 0 := by
      intro hzero
      have hlow := hnearest.pos_pow hpos hheld
      rw [value, hzero, Nat.cast_zero, zero_mul] at hlow
      exact absurd hlow (two_zpow_pos _).not_ge
    exact toFloat_nearest hunpack hmantissa hnearest

end Decimal

end Granularity
