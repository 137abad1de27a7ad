import Granularity.Toml.Text

namespace Granularity.Toml

def isBareKey (c : Char) : Bool :=
  c.isAlphanum || c == '_' || c == '-'

def simpleKey? (s : List Char) : Option (String × List Char) :=
  match s with
  | '"' :: rest => (basicString? (s.length + 1) rest).map fun (t, r) => (String.ofList t, r)
  | '\'' :: rest => (literalString? rest).map fun (t, r) => (String.ofList t, r)
  | _ =>
    let key := s.takeWhile isBareKey
    if key.isEmpty then none else some (String.ofList key, s.dropWhile isBareKey)

def keys? : Nat → List Char → Option (List String × List Char)
  | 0, _ => none
  | steps + 1, s =>
    match simpleKey? (skipSpace s) with
    | none => none
    | some (key, r) =>
      match skipSpace r with
      | '.' :: r => (keys? steps r).map fun (keys, r) => (key :: keys, r)
      | r => some ([key], r)

def isScalarChar (c : Char) : Bool :=
  c.isAlphanum || c == '_' || c == '-' || c == '+' || c == '.' || c == ':'

def unquoted? (s : List Char) : Option (Toml × List Char) :=
  let word := s.takeWhile isScalarChar
  let rest := s.dropWhile isScalarChar
  match skipDate? word, rest with
  | some [], ' ' :: c :: r =>
    if isDecimal c then
      (scalar? (word ++ ' ' :: (c :: r).takeWhile isScalarChar)).map (·, (c :: r).dropWhile isScalarChar)
    else (scalar? word).map (·, rest)
  | _, _ => (scalar? word).map (·, rest)

def maxDepth : Nat := 80

mutual

/-- A value in front of a text, and what is behind it. Each step takes a character, so the length of
the text bounds `steps`. -/
def value? (steps depth : Nat) (s : List Char) : Option (Toml × List Char) :=
  match steps with
  | 0 => none
  | steps + 1 =>
    match s with
    | [] => none
    | c :: rest =>
      if c == '"' || c == '\'' then (string? s).map fun (t, r) => (.string t, r)
      else if c == '[' then
        match depth with
        | 0 => none
        | depth + 1 => (items? steps depth rest).map fun (items, r) => (.array items, r)
      else if c == '{' then
        match depth with
        | 0 => none
        | depth + 1 => (fields? steps depth [] rest).map fun (fields, r) => (.table .inline fields, r)
      else unquoted? s

def items? (steps depth : Nat) (s : List Char) : Option (List Toml × List Char) :=
  match steps with
  | 0 => none
  | steps + 1 =>
    match skipBlank? (s.length + 1) s with
    | none => none
    | some (']' :: r) => some ([], r)
    | some s =>
      match value? steps depth s with
      | none => none
      | some (item, r) =>
        match skipBlank? (r.length + 1) r with
        | some (']' :: r) => some ([item], r)
        | some (',' :: r) => (items? steps depth r).map fun (items, r) => (item :: items, r)
        | _ => none

def fields? (steps depth : Nat) (done : Fields) (s : List Char) : Option (Fields × List Char) :=
  match steps with
  | 0 => none
  | steps + 1 =>
    match skipBlank? (s.length + 1) s with
    | none => none
    | some ('}' :: r) => some (done, r)
    | some s =>
      match keys? (s.length + 1) s with
      | some (keys, '=' :: r) =>
        match value? steps depth (skipSpace r) with
        | none => none
        | some (v, r) =>
          match insertDotted v keys.dropLast (keys.getLast?.getD "") done with
          | none => none
          | some done =>
            match skipBlank? (r.length + 1) r with
            | some ('}' :: r) => some (done, r)
            | some (',' :: r) => fields? steps depth done r
            | _ => none
      | _ => none

end

structure Reading where
  fields : Fields
  header : List String

def header? (state : Reading) (s : List Char) : Option (Reading × List Char) := do
  let (double, s) := match s with
    | '[' :: r => (true, r)
    | r => (false, r)
  let (keys, s) ← keys? (s.length + 1) s
  let s ← mark? ']' s
  let s ← if double then mark? ']' s else some s
  let s ← skipLineEnd? s
  let last := keys.getLast?.getD ""
  let fields ← descend (if double then openArrayTable last else openTable last) keys.dropLast state.fields
  return (⟨fields, keys⟩, s)

def pair? (state : Reading) (s : List Char) : Option (Reading × List Char) := do
  let (keys, s) ← keys? (s.length + 1) s
  let s ← mark? '=' s
  let (v, s) ← value? (2 * s.length + 2) maxDepth (skipSpace s)
  let s ← skipLineEnd? s
  let fields ← descend (insertDotted v keys.dropLast (keys.getLast?.getD "")) state.header state.fields
  return ({ state with fields }, s)

def lines? : Nat → Reading → List Char → Option Fields
  | 0, _, _ => none
  | steps + 1, state, s =>
    match skipBlank? (s.length + 1) s with
    | none => none
    | some [] => some state.fields
    | some ('[' :: r) =>
      match header? state r with
      | some (state, r) => lines? steps state r
      | none => none
    | some r =>
      match pair? state r with
      | some (state, r) => lines? steps state r
      | none => none

def dropMark : List Char → List Char
  | c :: rest => if c.toNat = 0xFEFF then rest else c :: rest
  | [] => []

def parse? (text : String) : Option Fields :=
  let s := dropMark text.toList
  lines? (s.length + 1) ⟨[], []⟩ s

end Granularity.Toml
