namespace Granularity.Decimal

/-- A finite magnitude, with the distance to its lower neighbour: `narrow` says that it is only half
of the distance to the upper one. -/
structure Binary where
  mantissa : Nat
  exponent : Int
  narrow : Bool
  deriving DecidableEq

inductive Parts where
  | nan
  | infinity (negative : Bool)
  | finite (negative : Bool) (magnitude : Binary)
  deriving DecidableEq

def Parts.ofBits (bits : Nat) : Parts :=
  let negative := bits / 0x8000000000000000 == 1
  let field : Nat := bits / 0x10000000000000 % 2048
  let fraction : Nat := bits % 0x10000000000000
  if field = 2047 then (if fraction = 0 then .infinity negative else .nan)
  else if field = 0 then .finite negative ⟨fraction, -1074, false⟩
  else .finite negative ⟨0x10000000000000 + fraction, (field : Int) - 1075, fraction == 0 && 1 < field⟩

def Parts.ofFloat (x : Float) : Parts :=
  .ofBits x.toBits.toNat

/-- A quotient rounded to the nearest whole number, a half to the even one. -/
def roundDiv (num den : Nat) : Nat :=
  let q := num / den
  let r := num % den
  if den < 2 * r || (2 * r == den && q % 2 == 1) then q + 1 else q

end Granularity.Decimal
