import Granularity.Decimal.Binary

/-!
The shortest decimal that reads back to a double: of the decimals with the fewest digits between the
two neighbouring midpoints, the nearest one.
-/

namespace Granularity.Decimal

/-- The digits of a number, most significant first, and where the point stands: the number is
`0.d₁d₂… * 10 ^ point`. -/
structure Digits where
  digits : List Char
  point : Int
  deriving DecidableEq

def digitCount (n : Nat) : Nat :=
  (Nat.toDigits 10 n).length

structure Interval where
  low : Nat
  mid : Nat
  high : Nat
  den : Nat
  closed : Bool

/-- From midpoint to midpoint; the ends belong to it if the mantissa is even. -/
def Binary.interval (b : Binary) : Interval :=
  let up := Nat.pow 2 (b.exponent - 2).toNat
  { low := (4 * b.mantissa - (if b.narrow then 1 else 2)) * up
    mid := 4 * b.mantissa * up
    high := (4 * b.mantissa + 2) * up
    den := Nat.pow 2 (2 - b.exponent).toNat
    closed := b.mantissa % 2 == 0 }

namespace Interval

def leadingExponent (i : Interval) : Int :=
  let e : Int := (digitCount i.mid : Int) - digitCount i.den
  if i.den * Nat.pow 10 e.toNat ≤ i.mid * Nat.pow 10 (-e).toNat then e else e - 1

def contains (i : Interval) (n : Nat) (k : Int) : Bool :=
  let x := n * Nat.pow 10 k.toNat * i.den
  let low := i.low * Nat.pow 10 (-k).toNat
  let high := i.high * Nat.pow 10 (-k).toNat
  if i.closed then low ≤ x && x ≤ high else low < x && x < high

def candidate? (i : Interval) (k : Int) : Option Nat :=
  let num := i.mid * Nat.pow 10 (-k).toNat
  let den := i.den * Nat.pow 10 k.toNat
  let below := num / den
  let nearest := roundDiv num den
  if i.contains nearest k then some nearest
  else if i.contains below k then some below
  else if i.contains (below + 1) k then some (below + 1)
  else none

def search (i : Interval) : Nat → Int → Nat × Int
  | 0, k => (roundDiv (i.mid * Nat.pow 10 (-k).toNat) (i.den * Nat.pow 10 k.toNat), k)
  | steps + 1, k =>
    match i.candidate? k with
    | some n => (n, k)
    | none => i.search steps (k - 1)

end Interval

def stripZeros (ds : List Char) : List Char :=
  (ds.reverse.dropWhile (· == '0')).reverse

def Binary.shortest (b : Binary) : Digits :=
  if b.mantissa = 0 then ⟨['0'], 1⟩
  else
    let i := b.interval
    let (n, k) := i.search 17 i.leadingExponent
    let ds := Nat.toDigits 10 n
    ⟨stripZeros ds, ds.length + k⟩

end Granularity.Decimal
