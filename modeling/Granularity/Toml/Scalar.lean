import Granularity.Toml.Basic
import Granularity.Decimal.Read

namespace Granularity.Toml

open Decimal

def isDecimal (c : Char) : Bool :=
  '0' ≤ c && c ≤ '9'

def digit? (c : Char) : Option Nat :=
  if isDecimal c then some (c.toNat - 48)
  else if 'a' ≤ c && c ≤ 'f' then some (c.toNat - 87)
  else if 'A' ≤ c && c ≤ 'F' then some (c.toNat - 55)
  else none

def isDigitIn (base : Nat) (c : Char) : Bool :=
  match digit? c with
  | some n => n < base
  | none => false

def moreDigits (p : Char → Bool) : List Char → List Char × List Char
  | '_' :: c :: rest =>
    if p c then
      let (ds, r) := moreDigits p rest
      (c :: ds, r)
    else ([], '_' :: c :: rest)
  | c :: rest =>
    if p c then
      let (ds, r) := moreDigits p rest
      (c :: ds, r)
    else ([], c :: rest)
  | [] => ([], [])

def digitGroup? (p : Char → Bool) : List Char → Option (List Char × List Char)
  | c :: rest =>
    if p c then
      let (ds, r) := moreDigits p rest
      some (c :: ds, r)
    else none
  | [] => none

def baseValue (base : Nat) (ds : List Char) : Nat :=
  ds.foldl (fun n c => n * base + (digit? c).getD 0) 0

def wholeNumber? (n : Int) : Option Toml :=
  if -0x80000000000000000000000000000000 ≤ n && n < 0x100000000000000000000000000000000 then some (.integer n) else none

def basedInteger? (base : Nat) (s : List Char) : Option Toml :=
  match digitGroup? (isDigitIn base) s with
  | some (ds, []) => wholeNumber? (baseValue base ds)
  | _ => none

def splitSign : List Char → Bool × List Char
  | '-' :: rest => (true, rest)
  | '+' :: rest => (false, rest)
  | rest => (false, rest)

def fraction? : List Char → Option (Option (List Char) × List Char)
  | '.' :: rest => (digitGroup? isDecimal rest).map fun (ds, r) => (some ds, r)
  | rest => some (none, rest)

def exponent? : List Char → Option (Option Int × List Char)
  | c :: rest =>
    if c == 'e' || c == 'E' then
      let (negative, s) := splitSign rest
      (digitGroup? isDecimal s).map fun (ds, r) =>
        (some (if negative then -(digitsValue ds : Int) else digitsValue ds), r)
    else some (none, c :: rest)
  | [] => some (none, [])

/-- A number in base ten behind its sign. A float beyond the greatest double is refused. -/
def decimalNumber? (negative : Bool) (s : List Char) : Option Toml := do
  let (whole, s) ← digitGroup? isDecimal s
  if whole.head? == some '0' && 1 < whole.length then none
  let (fraction, s) ← fraction? s
  let (exponent, s) ← exponent? s
  if !s.isEmpty then none
  if fraction.isNone && exponent.isNone then
    let n := digitsValue whole
    return ← wholeNumber? (if negative then -(n : Int) else n)
  let x := (Literal.ofDigits negative whole (fraction.getD []) (exponent.getD 0)).toFloat
  if x.isFinite then return .float x else none

def number? (s : List Char) : Option Toml :=
  match s with
  | '0' :: 'x' :: rest => basedInteger? 16 rest
  | '0' :: 'o' :: rest => basedInteger? 8 rest
  | '0' :: 'b' :: rest => basedInteger? 2 rest
  | _ =>
    let (negative, rest) := splitSign s
    if rest = "inf".toList then some (.float (if negative then -(1 / 0) else 1 / 0))
    else if rest = "nan".toList then some (.float (0 / 0))
    else decimalNumber? negative rest

def field? (width least greatest : Nat) (s : List Char) : Option (Nat × List Char) :=
  let ds := s.take width
  if ds.length = width && ds.all isDecimal && least ≤ digitsValue ds && digitsValue ds ≤ greatest then
    some (digitsValue ds, s.drop width)
  else none

def isLeapYear (year : Nat) : Bool :=
  year % 4 == 0 && (year % 100 != 0 || year % 400 == 0)

def daysInMonth (year month : Nat) : Nat :=
  if month = 2 then (if isLeapYear year then 29 else 28)
  else if month = 4 ∨ month = 6 ∨ month = 9 ∨ month = 11 then 30
  else 31

def mark? (c : Char) : List Char → Option (List Char)
  | x :: rest => if x = c then some rest else none
  | [] => none

def skipDate? (s : List Char) : Option (List Char) := do
  let (year, s) ← field? 4 0 9999 s
  let s ← mark? '-' s
  let (month, s) ← field? 2 1 12 s
  let s ← mark? '-' s
  let (_, s) ← field? 2 1 (daysInMonth year month) s
  return s

def skipSeconds? (s : List Char) : Option (List Char) :=
  match s with
  | ':' :: rest => do
    let (_, s) ← field? 2 0 60 rest
    match s with
    | '.' :: rest =>
      if (rest.takeWhile isDecimal).isEmpty then none else return rest.dropWhile isDecimal
    | s => return s
  | s => some s

def skipTime? (s : List Char) : Option (List Char) := do
  let (_, s) ← field? 2 0 23 s
  let s ← mark? ':' s
  let (_, s) ← field? 2 0 59 s
  skipSeconds? s

def isOffset (s : List Char) : Bool :=
  match s with
  | [] => true
  | ['Z'] | ['z'] => true
  | c :: rest =>
    if c == '+' || c == '-' then
      match (do
        let (_, s) ← field? 2 0 23 rest
        let s ← mark? ':' s
        field? 2 0 59 s) with
      | some (_, []) => true
      | _ => false
    else false

def isDateTime (s : List Char) : Bool :=
  match skipDate? s with
  | some [] => true
  | some (c :: rest) =>
    if c == 'T' || c == 't' || c == ' ' then
      match skipTime? rest with
      | some r => isOffset r
      | none => false
    else false
  | none => skipTime? s == some []

def scalar? (s : List Char) : Option Toml :=
  if s = "true".toList then some (.boolean true)
  else if s = "false".toList then some (.boolean false)
  else if isDateTime s then some .dateTime
  else number? s

end Granularity.Toml
