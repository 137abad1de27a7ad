import Granularity.Decimal.Shortest

namespace Granularity.Decimal

structure Layout where
  /-- the least and the greatest exponent of the leading digit that is written without an exponent;
  `none` is no bound -/
  plain : Option (Int × Int)
  pointZero : Bool
  infinity : String
  nan : String

def zeros (n : Nat) : List Char :=
  List.replicate n '0'

def Digits.positional (d : Digits) (pointZero : Bool) : List Char :=
  if d.point ≤ 0 then ['0', '.'] ++ zeros (-d.point).toNat ++ d.digits
  else if (d.digits.length : Int) ≤ d.point then
    d.digits ++ zeros (d.point - d.digits.length).toNat ++ (if pointZero then ['.', '0'] else [])
  else d.digits.take d.point.toNat ++ ['.'] ++ d.digits.drop d.point.toNat

def Digits.scientific (d : Digits) : List Char :=
  let e := d.point - 1
  d.digits.take 1 ++ (if d.digits.length ≤ 1 then [] else '.' :: d.digits.drop 1) ++ ['e'] ++
    (if e < 0 then ['-'] else ['+']) ++ Nat.toDigits 10 e.natAbs

def Layout.digits (l : Layout) (d : Digits) : List Char :=
  match l.plain with
  | none => d.positional l.pointZero
  | some (least, greatest) =>
    if least ≤ d.point - 1 && d.point - 1 ≤ greatest then d.positional l.pointZero else d.scientific

def Layout.write (l : Layout) (x : Float) : String :=
  match Parts.ofFloat x with
  | .nan => l.nan
  | .infinity negative => if negative then "-" ++ l.infinity else l.infinity
  | .finite negative magnitude =>
    String.ofList ((if negative then ['-'] else []) ++ l.digits magnitude.shortest)

def Layout.sentence : Layout where
  plain := none
  pointZero := false
  infinity := "inf"
  nan := "NaN"

/-- A number with a fixed count of places behind the point. The exact value is rounded, a half to the
even digit. -/
def fixed (places : Nat) (x : Float) : String :=
  match Parts.ofFloat x with
  | .nan => "NaN"
  | .infinity negative => if negative then "-inf" else "inf"
  | .finite negative b =>
    let n := roundDiv (b.mantissa * Nat.pow 2 b.exponent.toNat * Nat.pow 10 places) (Nat.pow 2 (-b.exponent).toNat)
    let whole := Nat.toDigits 10 (n / Nat.pow 10 places)
    let part := Nat.toDigits 10 (n % Nat.pow 10 places)
    String.ofList ((if negative then ['-'] else []) ++ whole ++
      (if places = 0 then [] else ['.'] ++ zeros (places - part.length) ++ part))

end Granularity.Decimal
