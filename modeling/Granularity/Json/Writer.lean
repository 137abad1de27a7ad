import Granularity.Json.Basic
import Granularity.Decimal.Layout

namespace Granularity.Json

open Decimal

/-- Numbers in JSON: the shortest digits, written out for exponents from -5 to 15. What is not finite
is `null`. -/
def numberLayout : Layout where
  plain := some (-5, 15)
  pointZero := true
  infinity := "null"
  nan := "null"

def writeFloat (x : Float) : List Char :=
  if x.isFinite then (numberLayout.write x).toList else "null".toList

def hexDigit (n : Nat) : Char :=
  if n < 10 then Char.ofNat (48 + n) else Char.ofNat (87 + n)

def escapeChar (c : Char) : List Char :=
  if c == '"' then ['\\', '"']
  else if c == '\\' then ['\\', '\\']
  else if c == '\n' then ['\\', 'n']
  else if c == '\r' then ['\\', 'r']
  else if c == '\t' then ['\\', 't']
  else if c.toNat == 8 then ['\\', 'b']
  else if c.toNat == 12 then ['\\', 'f']
  else if c.toNat < 32 then ['\\', 'u', '0', '0', hexDigit (c.toNat / 16), hexDigit (c.toNat % 16)]
  else [c]

def writeString (s : String) : List Char :=
  ['"'] ++ s.toList.flatMap escapeChar ++ ['"']

def newline (depth : Nat) : List Char :=
  '\n' :: List.replicate (2 * depth) ' '

mutual

/-- A value whose lines, but the first, are indented by `depth` levels. -/
def prettyAt (depth : Nat) : Json → List Char
  | .null => "null".toList
  | .bool b => (if b then "true" else "false").toList
  | .int n => (toString n).toList
  | .float x => writeFloat x
  | .string s => writeString s
  | .array [] => ['[', ']']
  | .array (item :: items) =>
    ['['] ++ newline (depth + 1) ++ prettyAt (depth + 1) item ++ prettyItems (depth + 1) items ++
      newline depth ++ [']']
  | .object [] => ['{', '}']
  | .object ((name, value) :: fields) =>
    ['{'] ++ newline (depth + 1) ++ writeString name ++ [':', ' '] ++ prettyAt (depth + 1) value ++
      prettyFields (depth + 1) fields ++ newline depth ++ ['}']

def prettyItems (depth : Nat) : List Json → List Char
  | [] => []
  | item :: items => [','] ++ newline depth ++ prettyAt depth item ++ prettyItems depth items

def prettyFields (depth : Nat) : List (String × Json) → List Char
  | [] => []
  | (name, value) :: fields =>
    [','] ++ newline depth ++ writeString name ++ [':', ' '] ++ prettyAt depth value ++
      prettyFields depth fields

end

def pretty (j : Json) : String :=
  String.ofList (prettyAt 0 j)

end Granularity.Json
