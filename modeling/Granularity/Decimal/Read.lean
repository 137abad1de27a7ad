import Granularity.Decimal.Shortest

namespace Granularity.Decimal

structure Literal where
  negative : Bool
  mantissa : Nat
  exponent : Int
  deriving DecidableEq

/-- The nearest double. Exponents far outside the range of doubles are not multiplied out. -/
def Literal.toFloat (l : Literal) : Float :=
  let size := (digitCount l.mantissa : Int) + l.exponent
  let magnitude : Float :=
    if l.mantissa = 0 || size < -400 then 0
    else if 400 < size then Float.ofScientific 1 false 400
    else if l.exponent < 0 then Float.ofScientific l.mantissa true (-l.exponent).toNat
    else Float.ofScientific l.mantissa false l.exponent.toNat
  if l.negative then -magnitude else magnitude

def digitsValue (ds : List Char) : Nat :=
  ds.foldl (fun n c => n * 10 + (c.toNat - '0'.toNat)) 0

def Literal.ofDigits (negative : Bool) (whole fraction : List Char) (exponent : Int) : Literal where
  negative
  mantissa := digitsValue (whole ++ fraction)
  exponent := exponent - fraction.length

end Granularity.Decimal
