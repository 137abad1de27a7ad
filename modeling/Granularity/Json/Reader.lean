import Granularity.Json.Basic
import Granularity.Decimal.Read

/-!
Reading JSON. The whole text has to be one value; values nest at most 127 deep. A number without
fraction and exponent is whole if it fits a signed or an unsigned word of 64 bits.
-/

namespace Granularity.Json

open Decimal

def isSpace (c : Char) : Bool :=
  c == ' ' || c == '\n' || c == '\t' || c == '\r'

def skipSpace (s : List Char) : List Char :=
  s.dropWhile isSpace

def hexValue? (c : Char) : Option Nat :=
  if '0' ≤ c && c ≤ '9' then some (c.toNat - 48)
  else if 'a' ≤ c && c ≤ 'f' then some (c.toNat - 87)
  else if 'A' ≤ c && c ≤ 'F' then some (c.toNat - 55)
  else none

def hexWord? (a b c d : Char) : Option Nat := do
  return ((← hexValue? a) * 16 + (← hexValue? b)) * 256 + (← hexValue? c) * 16 + (← hexValue? d)

def plainEscape? (c : Char) : Option Char :=
  [('"', '"'), ('\\', '\\'), ('/', '/'), ('b', '\x08'), ('f', '\x0c'), ('n', '\n'), ('r', '\r'),
    ('t', '\t')].lookup c

def readString (done : List Char) : List Char → Option (String × List Char)
  | [] => none
  | '"' :: rest => some (String.ofList done.reverse, rest)
  | '\\' :: 'u' :: a :: b :: c :: d :: rest =>
    match hexWord? a b c d with
    | none => none
    | some n =>
      if 0xDC00 ≤ n && n < 0xE000 then none
      else if 0xD800 ≤ n && n < 0xDC00 then
        match rest with
        | '\\' :: 'u' :: e :: f :: g :: h :: rest =>
          match hexWord? e f g h with
          | some m =>
            if 0xDC00 ≤ m && m < 0xE000 then
              readString (Char.ofNat (0x10000 + (n - 0xD800) * 1024 + (m - 0xDC00)) :: done) rest
            else none
          | none => none
        | _ => none
      else readString (Char.ofNat n :: done) rest
  | '\\' :: c :: rest =>
    match plainEscape? c with
    | some x => readString (x :: done) rest
    | none => none
  | c :: rest => if c.toNat < 32 then none else readString (c :: done) rest

def isDigit (c : Char) : Bool :=
  '0' ≤ c && c ≤ '9'

def readExponent (s : List Char) : Option (Option Int × List Char) :=
  match s with
  | [] => some (none, [])
  | c :: rest =>
    if c == 'e' || c == 'E' then
      let (negative, digits) := match rest with
        | '-' :: r => (true, r)
        | '+' :: r => (false, r)
        | r => (false, r)
      let ds := digits.takeWhile isDigit
      if ds.isEmpty then none
      else
        let n : Int := digitsValue ds
        some (some (if negative then -n else n), digits.dropWhile isDigit)
    else some (none, s)

def readFraction (s : List Char) : Option (Option (List Char) × List Char) :=
  match s with
  | '.' :: rest =>
    let ds := rest.takeWhile isDigit
    if ds.isEmpty then none else some (some ds, rest.dropWhile isDigit)
  | _ => some (none, s)

def numberOfParts? (negative : Bool) (whole : List Char) (fraction : Option (List Char))
    (exponent : Option Int) : Option Json :=
  let n := digitsValue whole
  let x := (Literal.ofDigits negative whole (fraction.getD []) (exponent.getD 0)).toFloat
  if fraction.isNone && exponent.isNone &&
      (if negative then 0 < n && n ≤ 0x8000000000000000 else n < 0x10000000000000000) then
    some (.int (if negative then -(n : Int) else n))
  else if x.isFinite then some (.float x)
  else none

def readMagnitude (negative : Bool) (s : List Char) : Option (Json × List Char) := do
  let whole := s.takeWhile isDigit
  if whole.isEmpty || (whole.head? == some '0' && 1 < whole.length) then none
  let (fraction, s) ← readFraction (s.dropWhile isDigit)
  let (exponent, s) ← readExponent s
  let n ← numberOfParts? negative whole fraction exponent
  return (n, s)

def readNumber (s : List Char) : Option (Json × List Char) :=
  match s with
  | '-' :: r => readMagnitude true r
  | r => readMagnitude false r

def readWord (word : String) (j : Json) (s : List Char) : Option (Json × List Char) :=
  if word.toList.isPrefixOf s then some (j, s.drop word.length) else none

mutual

/-- A value in front of a text, and what is behind it. Each step takes a character, so the length of
the text bounds `steps`; `depth` is how deep values may still nest. -/
def readValue (steps depth : Nat) (s : List Char) : Option (Json × List Char) :=
  match steps with
  | 0 => none
  | steps + 1 =>
    match skipSpace s with
    | [] => none
    | '"' :: rest => (readString [] rest).map fun (t, r) => (.string t, r)
    | '[' :: rest =>
      match depth with
      | 0 => none
      | depth + 1 =>
        match skipSpace rest with
        | ']' :: r => some (.array [], r)
        | r => (readItems steps depth r).map fun (items, r) => (.array items, r)
    | '{' :: rest =>
      match depth with
      | 0 => none
      | depth + 1 =>
        match skipSpace rest with
        | '}' :: r => some (.object [], r)
        | r => (readFields steps depth r).map fun (fields, r) => (.object fields, r)
    | 'n' :: rest => readWord "null" .null ('n' :: rest)
    | 't' :: rest => readWord "true" (.bool true) ('t' :: rest)
    | 'f' :: rest => readWord "false" (.bool false) ('f' :: rest)
    | r => readNumber r

def readItems (steps depth : Nat) (s : List Char) : Option (List Json × List Char) :=
  match steps with
  | 0 => none
  | steps + 1 =>
    match readValue steps depth s with
    | none => none
    | some (item, r) =>
      match skipSpace r with
      | ']' :: r => some ([item], r)
      | ',' :: r => (readItems steps depth r).map fun (items, r) => (item :: items, r)
      | _ => none

def readFields (steps depth : Nat) (s : List Char) : Option (List (String × Json) × List Char) :=
  match steps with
  | 0 => none
  | steps + 1 =>
    match skipSpace s with
    | '"' :: rest =>
      match readString [] rest with
      | none => none
      | some (name, r) =>
        match skipSpace r with
        | ':' :: r =>
          match readValue steps depth r with
          | none => none
          | some (value, r) =>
            match skipSpace r with
            | '}' :: r => some ([(name, value)], r)
            | ',' :: r => (readFields steps depth r).map fun (fields, r) => ((name, value) :: fields, r)
            | _ => none
        | _ => none
    | _ => none

end

def maxDepth : Nat := 127

def parse? (text : String) : Option Json :=
  let s := text.toList
  match readValue (2 * s.length + 2) maxDepth s with
  | some (j, rest) => if (skipSpace rest).isEmpty then some j else none
  | none => none

end Granularity.Json
