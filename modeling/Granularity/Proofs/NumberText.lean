import Granularity.Json.Reader
import Granularity.Json.Writer
import Granularity.Proofs.Shortest

namespace Granularity

open Decimal

namespace Json

theorem isDigit_eq (c : Char) : isDigit c = c.isDigit := rfl

/-- The first character of what follows some digits. -/
def NoDigit (s : List Char) : Prop := ∀ c ∈ s.head?, isDigit c = false

/-- What may follow a number. -/
def EndsNumber (s : List Char) : Prop := NoDigit s ∧ ∀ c ∈ s.head?, c ≠ '.' ∧ c ≠ 'e' ∧ c ≠ 'E'

section

variable {ds s : List Char}

theorem takeWhile_digits (hds : ∀ c ∈ ds, c.isDigit = true) (hs : NoDigit s) :
    (ds ++ s).takeWhile isDigit = ds ∧ (ds ++ s).dropWhile isDigit = s := by
  have hds' : ∀ c ∈ ds, isDigit c = true := fun c hc => by rw [isDigit_eq, hds c hc]
  rw [List.takeWhile_append_of_pos hds', List.dropWhile_append_of_pos hds']
  cases s with
  | nil => exact ⟨List.append_nil ds, rfl⟩
  | cons c s =>
    have hc : isDigit c = false := hs c rfl
    rw [List.takeWhile_cons_of_neg (by simp [hc]), List.dropWhile_cons_of_neg (by simp [hc])]
    exact ⟨List.append_nil ds, rfl⟩

theorem readFraction_digits (hne : ds ≠ []) (hds : ∀ c ∈ ds, c.isDigit = true) (hs : NoDigit s) :
    readFraction ('.' :: (ds ++ s)) = some (some ds, s) := by
  obtain ⟨htake, hdrop⟩ := takeWhile_digits hds hs
  have hempty : ds.isEmpty = false := List.isEmpty_eq_false_iff.2 hne
  simp only [readFraction, htake, hdrop, hempty]
  rfl

theorem readFraction_none (h : s.head? ≠ some '.') : readFraction s = some (none, s) := by
  unfold readFraction
  split
  · exact absurd rfl h
  · rfl

theorem readExponent_digits (negative : Bool) (hne : ds ≠ []) (hds : ∀ c ∈ ds, c.isDigit = true) (hs : NoDigit s) :
    readExponent ('e' :: (if negative = true then '-' else '+') :: (ds ++ s)) =
      some (some (if negative = true then -(digitsValue ds : ℤ) else digitsValue ds), s) := by
  obtain ⟨htake, hdrop⟩ := takeWhile_digits hds hs
  have hempty : ds.isEmpty = false := List.isEmpty_eq_false_iff.2 hne
  cases negative with
  | true => simp [readExponent, htake, hdrop, hempty]
  | false => simp [readExponent, htake, hdrop, hempty]

theorem digits_toDigits (n : ℕ) : ∀ c ∈ Nat.toDigits 10 n, c.isDigit = true :=
  fun _ hc => Nat.isDigit_of_mem_toDigits (by decide) (by decide) hc

theorem readExponent_int (n : ℤ) (hs : NoDigit s) :
    readExponent ('e' :: (if n < 0 then '-' else '+') :: (Nat.toDigits 10 n.natAbs ++ s)) = some (some n, s) := by
  have hread := readExponent_digits (decide (n < 0)) Nat.toDigits_ne_nil (digits_toDigits n.natAbs) hs
  simp only [decide_eq_true_eq, digitsValue_toDigits] at hread
  rw [hread]
  congr 3
  split <;> omega

theorem readExponent_none (h : ∀ c ∈ s.head?, c ≠ 'e' ∧ c ≠ 'E') : readExponent s = some (none, s) := by
  cases s with
  | nil => rfl
  | cons c s =>
    obtain ⟨hsmall, hlarge⟩ := h c rfl
    simp [readExponent, hsmall, hlarge]

/-- A number by its parts: the digits before the point, and what the two readers behind them give. -/
theorem readMagnitude_parts {negative : Bool} {s₁ s₂ : List Char} {fraction : Option (List Char)}
    {exponent : Option ℤ} {j : Json} (hne : ds ≠ []) (hds : ∀ c ∈ ds, c.isDigit = true)
    (hlead : ds.head? = some '0' → ds.length ≤ 1) (hs : NoDigit s)
    (hfraction : readFraction s = some (fraction, s₁)) (hexponent : readExponent s₁ = some (exponent, s₂))
    (hj : numberOfParts? negative ds fraction exponent = some j) :
    readMagnitude negative (ds ++ s) = some (j, s₂) := by
  obtain ⟨htake, hdrop⟩ := takeWhile_digits hds hs
  have hstart : ¬ (ds.isEmpty || (ds.head? == some '0' && decide (1 < ds.length))) = true := by
    rw [List.isEmpty_eq_false_iff.2 hne, Bool.false_or, Bool.and_eq_true, beq_iff_eq, decide_eq_true_eq]
    rintro ⟨hzero, hmore⟩
    exact absurd (hlead hzero) hmore.not_ge
  unfold readMagnitude
  simp only [htake, hdrop]
  rw [if_neg hstart]
  simp only [hfraction, hexponent, hj, Option.bind_eq_bind, Option.bind_some]
  rfl

theorem readNumber_plain (hs : ∃ c ∈ s.head?, c.isDigit = true) : readNumber s = readMagnitude false s := by
  unfold readNumber
  split
  · obtain ⟨c, hc, hdigit⟩ := hs
    cases hc
    exact absurd hdigit (by decide)
  · rfl

end

theorem numberOfParts?_float {negative : Bool} {whole : List Char} {fraction : Option (List Char)}
    {exponent : Option ℤ} {x : Float} (hpart : fraction.isSome = true ∨ exponent.isSome = true)
    (hx : x.isFinite = true)
    (hread : (Literal.ofDigits negative whole (fraction.getD []) (exponent.getD 0)).toFloat = x) :
    numberOfParts? negative whole fraction exponent = some (.float x) := by
  have hnotWhole : (fraction.isNone && exponent.isNone) = false := by
    rw [Bool.and_eq_false_iff, Option.isNone_eq_false_iff, Option.isNone_eq_false_iff]
    exact hpart
  simp only [numberOfParts?, hread, hnotWhole, Bool.false_and]
  rw [if_neg (by decide), if_pos hx]

/-- Literals with this sign and the value of these digits are read as `x`. -/
def ReadAs (negative : Bool) (d : Digits) (x : Float) : Prop :=
  ∀ l : Literal, l.negative = negative → l.value = d.value → l.toFloat = x

section

variable {negative : Bool} {d : Digits} {x : Float} {rest : List Char}

theorem noDigit_cons {c : Char} (hc : c.isDigit = false) (s : List Char) : NoDigit (c :: s) := by
  intro c' hc'
  cases hc'
  exact hc

theorem digits_zeros (n : ℕ) : ∀ c ∈ zeros n, c.isDigit = true := by
  intro c hc
  rw [List.eq_of_mem_replicate hc]
  rfl

theorem readMagnitude_point {whole fraction : List Char} (hwhole : whole ≠ []) (hfraction : fraction ≠ [])
    (hds : ∀ c ∈ whole ++ fraction, c.isDigit = true) (hlead : whole.head? = some '0' → whole.length ≤ 1)
    (hrest : EndsNumber rest) (hx : x.isFinite = true) (hread : ReadAs negative d x)
    (hvalue : (digitsValue (whole ++ fraction) : ℚ) * 10 ^ (-(fraction.length : ℤ)) = d.value) :
    readMagnitude negative (whole ++ '.' :: (fraction ++ rest)) = some (.float x, rest) := by
  apply readMagnitude_parts hwhole (fun c hc => hds c (List.mem_append_left _ hc)) hlead (noDigit_cons rfl _)
    (readFraction_digits hfraction (fun c hc => hds c (List.mem_append_right _ hc)) hrest.1)
    (readExponent_none fun c hc => (hrest.2 c hc).2)
  apply numberOfParts?_float (.inl rfl) hx
  refine hread _ rfl ?_
  rw [← hvalue, Literal.value]
  simp only [Literal.ofDigits, Option.getD_some, Option.getD_none, zero_sub]

theorem readMagnitude_below_one (hd : d.Proper) (hrest : EndsNumber rest) (hx : x.isFinite = true)
    (hread : ReadAs negative d x) (hpoint : d.point ≤ 0) :
    readMagnitude negative (['0'] ++ '.' :: (zeros (-d.point).toNat ++ d.digits ++ rest)) = some (.float x, rest) := by
  apply readMagnitude_point (List.cons_ne_nil _ _) (List.append_ne_nil_of_right_ne_nil _ hd.nonempty) _
    (fun _ => le_rfl) hrest hx hread
  · have hvalue : digitsValue (['0'] ++ (zeros (-d.point).toNat ++ d.digits)) = digitsValue d.digits := by
      rw [digitsValue_append, digitsValue_append, digitsValue_zeros]
      simp [digitsValue]
    rw [hvalue, Digits.value, List.length_append, zeros, List.length_replicate]
    congr 2
    omega
  · rw [List.forall_mem_append, List.forall_mem_append]
    exact ⟨digits_zeros 1, digits_zeros _, hd.digits⟩

theorem readMagnitude_whole (hd : d.Proper) (hrest : EndsNumber rest) (hx : x.isFinite = true)
    (hread : ReadAs negative d x) (hpoint : (d.digits.length : ℤ) ≤ d.point) :
    readMagnitude negative (d.digits ++ zeros (d.point - d.digits.length).toNat ++ '.' :: (['0'] ++ rest)) =
      some (.float x, rest) := by
  obtain ⟨k, hk⟩ : ∃ k : ℕ, d.point - d.digits.length = k := ⟨(d.point - d.digits.length).toNat, by omega⟩
  rw [hk, Int.toNat_natCast]
  apply readMagnitude_point (List.append_ne_nil_of_left_ne_nil hd.nonempty _) (List.cons_ne_nil _ _) _ _ hrest hx hread
  · rw [digitsValue_append, digitsValue_append, digitsValue_zeros, Digits.value, hk, zeros, List.length_replicate]
    simp [digitsValue]
  · rw [List.forall_mem_append, List.forall_mem_append]
    exact ⟨⟨hd.digits, digits_zeros k⟩, digits_zeros 1⟩
  · -- only zero itself starts with a zero, and it gets no other
    intro hzero
    rw [List.head?_append_of_ne_nil _ hd.nonempty] at hzero
    rw [hd.leading hzero] at hk ⊢
    have hnone : (1 : ℤ) - 1 = k := hk
    obtain rfl : k = 0 := by omega
    exact le_rfl

theorem readMagnitude_between (hd : d.Proper) (hrest : EndsNumber rest) (hx : x.isFinite = true)
    (hread : ReadAs negative d x) (hpos : 0 < d.point) (hless : d.point < d.digits.length) :
    readMagnitude negative (d.digits.take d.point.toNat ++ '.' :: (d.digits.drop d.point.toNat ++ rest)) =
      some (.float x, rest) := by
  obtain ⟨k, hk⟩ : ∃ k : ℕ, d.point = k := ⟨d.point.toNat, by omega⟩
  rw [hk] at hpos hless
  rw [hk, Int.toNat_natCast]
  apply readMagnitude_point _ _ _ _ hrest hx hread
  · rw [List.take_append_drop, Digits.value, List.length_drop, hk]
    congr 2
    omega
  · rw [ne_eq, List.take_eq_nil_iff]
    rintro (hzero | hnil)
    · omega
    · exact hd.nonempty hnil
  · rw [ne_eq, List.drop_eq_nil_iff]
    omega
  · rw [List.take_append_drop]
    exact hd.digits
  · intro hzero
    rw [List.head?_take, if_neg (by omega)] at hzero
    rw [hd.leading hzero] at hless
    have : (k : ℤ) < 1 := hless
    omega

theorem readMagnitude_positional (hd : d.Proper) (hrest : EndsNumber rest) (hx : x.isFinite = true)
    (hread : ReadAs negative d x) : readMagnitude negative (d.positional true ++ rest) = some (.float x, rest) := by
  unfold Digits.positional
  split
  · next hpoint => simpa using readMagnitude_below_one hd hrest hx hread hpoint
  · next hpoint =>
    split
    · next hlong => simpa using readMagnitude_whole hd hrest hx hread hlong
    · next hshort => simpa using readMagnitude_between hd hrest hx hread (by omega) (by omega)

theorem readMagnitude_scientific (hd : d.Proper) (hrest : EndsNumber rest) (hx : x.isFinite = true)
    (hread : ReadAs negative d x) : readMagnitude negative (d.scientific ++ rest) = some (.float x, rest) := by
  obtain ⟨digit, more, hdigits⟩ := List.exists_cons_of_ne_nil hd.nonempty
  have hmarks : (if d.point - 1 < 0 then ['-'] else ['+']) = [if d.point - 1 < 0 then '-' else '+'] := by
    split <;> rfl
  have hexponent := readExponent_int (d.point - 1) hrest.1
  have hlead : [digit].head? = some '0' → [digit].length ≤ 1 := fun _ => le_rfl
  have hone : ∀ c ∈ [digit], c.isDigit = true := by
    intro c hc
    apply hd.digits
    rw [hdigits, List.mem_singleton.1 hc]
    exact List.mem_cons_self
  cases more with
  | nil =>
    have htext : d.scientific ++ rest =
        [digit] ++ 'e' :: (if d.point - 1 < 0 then '-' else '+') ::
          (Nat.toDigits 10 (d.point - 1).natAbs ++ rest) := by
      simp only [Digits.scientific, hdigits, hmarks]
      simp
    rw [htext]
    apply readMagnitude_parts (List.cons_ne_nil _ _) hone hlead (noDigit_cons rfl _)
      (readFraction_none (by simp)) hexponent
    apply numberOfParts?_float (.inr rfl) hx
    refine hread _ rfl ?_
    rw [Literal.value, Digits.value, hdigits]
    simp [Literal.ofDigits]
  | cons next more =>
    have htext : d.scientific ++ rest =
        [digit] ++ '.' :: ((next :: more) ++ 'e' :: (if d.point - 1 < 0 then '-' else '+') ::
          (Nat.toDigits 10 (d.point - 1).natAbs ++ rest)) := by
      simp only [Digits.scientific, hdigits, hmarks]
      simp
    have hfraction : ∀ c ∈ next :: more, c.isDigit = true := by
      intro c hc
      apply hd.digits
      rw [hdigits]
      exact List.mem_cons_of_mem _ hc
    rw [htext]
    apply readMagnitude_parts (List.cons_ne_nil _ _) hone hlead (noDigit_cons rfl _)
      (readFraction_digits (List.cons_ne_nil _ _) hfraction (noDigit_cons rfl _)) hexponent
    apply numberOfParts?_float (.inl rfl) hx
    refine hread _ rfl ?_
    rw [Literal.value, Digits.value, hdigits]
    simp only [Literal.ofDigits, Option.getD_some, List.singleton_append, List.length_cons]
    congr 2
    push_cast
    ring

theorem head_numberLayout (hd : d.Proper) : ∃ c ∈ (numberLayout.digits d).head?, c.isDigit = true := by
  obtain ⟨digit, more, hdigits⟩ := List.exists_cons_of_ne_nil hd.nonempty
  have hdigit : digit.isDigit = true := by
    apply hd.digits
    rw [hdigits]
    exact List.mem_cons_self
  simp only [numberLayout, Layout.digits]
  split
  · unfold Digits.positional
    split
    · exact ⟨'0', rfl, rfl⟩
    · split
      · exact ⟨digit, by rw [hdigits]; rfl, hdigit⟩
      · next hpoint _ =>
        obtain ⟨k, hk⟩ : ∃ k, d.point.toNat = k + 1 := ⟨d.point.toNat - 1, by omega⟩
        exact ⟨digit, by rw [hdigits, hk]; rfl, hdigit⟩
  · exact ⟨digit, by rw [Digits.scientific, hdigits]; rfl, hdigit⟩

theorem readMagnitude_numberLayout (hd : d.Proper) (hrest : EndsNumber rest) (hx : x.isFinite = true)
    (hread : ReadAs negative d x) :
    readMagnitude negative (numberLayout.digits d ++ rest) = some (.float x, rest) := by
  simp only [numberLayout, Layout.digits]
  split
  · exact readMagnitude_positional hd hrest hx hread
  · exact readMagnitude_scientific hd hrest hx hread

theorem writeFloat_eq (hx : x.isFinite = true) : ∃ negative d, d.Proper ∧ ReadAs negative d x ∧
    writeFloat x = (if negative = true then ['-'] else []) ++ numberLayout.digits d := by
  obtain ⟨negative, m, e, hparts, hheld, -⟩ := Binary64.parts_of_isFinite hx
  refine ⟨negative, _, Binary.shortest_proper hheld, ?_, ?_⟩
  · intro l hneg hvalue
    subst hneg
    exact Literal.toFloat_shortest hx hparts hvalue
  · rw [writeFloat, if_pos hx, Layout.write, hparts, String.toList_ofList]

theorem readNumber_writeFloat (hx : x.isFinite = true) (hrest : EndsNumber rest) :
    readNumber (writeFloat x ++ rest) = some (.float x, rest) := by
  obtain ⟨negative, d, hd, hread, htext⟩ := writeFloat_eq hx
  have hmagnitude := readMagnitude_numberLayout hd hrest hx hread
  rw [htext]
  cases negative with
  | true => exact hmagnitude
  | false =>
    obtain ⟨c, hc, hdigit⟩ := head_numberLayout hd
    rw [← hmagnitude]
    exact readNumber_plain ⟨c, List.mem_head?_append_of_mem_head? hc, hdigit⟩

end

/-- A whole number as a word of 64 bits holds it, with or without a sign. -/
def FitsWord (n : ℤ) : Prop := -2 ^ 63 ≤ n ∧ n < 2 ^ 64

theorem head_toDigits (n : ℕ) : ∃ c ∈ (Nat.toDigits 10 n).head?, c.isDigit = true := by
  obtain ⟨c, ds, hds⟩ := List.exists_cons_of_ne_nil (Nat.toDigits_ne_nil (n := n) (b := 10))
  refine ⟨c, by rw [hds]; rfl, digits_toDigits n c ?_⟩
  rw [hds]
  exact List.mem_cons_self

theorem toList_int (n : ℤ) :
    (toString n).toList = (if n < 0 then ['-'] else []) ++ Nat.toDigits 10 n.natAbs := by
  cases n with
  | ofNat n =>
    have htext : toString (Int.ofNat n) = String.ofList (Nat.toDigits 10 n) := Nat.repr_eq_ofList_toDigits
    have hnonneg : ¬ Int.ofNat n < 0 := (Int.natCast_nonneg n).not_gt
    rw [htext, String.toList_ofList, if_neg hnonneg]
    rfl
  | negSucc n =>
    have htext : toString (Int.negSucc n) = "-" ++ String.ofList (Nat.toDigits 10 (n + 1)) :=
      congrArg ("-" ++ ·) Nat.repr_eq_ofList_toDigits
    simp only [htext, String.toList_append, String.toList_ofList]
    rw [if_pos (Int.negSucc_lt_zero n)]
    rfl

theorem readMagnitude_digits (n : ℕ) (negative : Bool) {rest : List Char} (hrest : EndsNumber rest)
    (hfits : FitsWord (if negative = true then -n else n)) (hzero : negative = true → n ≠ 0) :
    readMagnitude negative (Nat.toDigits 10 n ++ rest) =
      some (.int (if negative = true then -n else n), rest) := by
  have hlead : (Nat.toDigits 10 n).head? = some '0' → (Nat.toDigits 10 n).length ≤ 1 := by
    intro hhead
    have : n = 0 := by
      by_contra hne
      exact toDigits_head hne hhead
    rw [this]
    exact le_rfl
  apply readMagnitude_parts Nat.toDigits_ne_nil (digits_toDigits n) hlead hrest.1
    (readFraction_none fun hdot => (hrest.2 '.' hdot).1 rfl) (readExponent_none fun c hc => (hrest.2 c hc).2)
  obtain ⟨hlow, hhigh⟩ := hfits
  simp only [numberOfParts?, digitsValue_toDigits, Option.isNone_none, Bool.true_and]
  rw [if_pos]
  cases negative with
  | true =>
    have := hzero rfl
    rw [if_pos rfl] at hlow
    simp only [if_true, Bool.and_eq_true, decide_eq_true_eq]
    omega
  | false =>
    rw [if_neg (by decide)] at hhigh
    simp only [Bool.false_eq_true, if_false, decide_eq_true_eq]
    omega

theorem readNumber_int {n : ℤ} {rest : List Char} (hn : FitsWord n) (hrest : EndsNumber rest) :
    readNumber ((toString n).toList ++ rest) = some (.int n, rest) := by
  rw [toList_int]
  by_cases hneg : n < 0
  · have hvalue : -(n.natAbs : ℤ) = n := by omega
    have hmagnitude := readMagnitude_digits n.natAbs true hrest (by rwa [if_pos rfl, hvalue]) (by omega)
    rw [if_pos rfl, hvalue] at hmagnitude
    rw [if_pos hneg]
    exact hmagnitude
  · have hvalue : (n.natAbs : ℤ) = n := by omega
    have hmagnitude := readMagnitude_digits n.natAbs false hrest (by rwa [if_neg (by decide), hvalue])
      (fun h => absurd h (by decide))
    rw [if_neg (by decide), hvalue] at hmagnitude
    rw [if_neg hneg, List.nil_append, ← hmagnitude]
    obtain ⟨c, hc, hdigit⟩ := head_toDigits n.natAbs
    exact readNumber_plain ⟨c, List.mem_head?_append_of_mem_head? hc, hdigit⟩

end Json

end Granularity
