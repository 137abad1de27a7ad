import Granularity.Toml.Scalar

namespace Granularity.Toml

def isSpace (c : Char) : Bool :=
  c == ' ' || c == '\t'

def skipSpace (s : List Char) : List Char :=
  s.dropWhile isSpace

def isPrintable (c : Char) : Bool :=
  c == '\t' || (32 ≤ c.toNat && c.toNat != 127)

def skipNewline? : List Char → Option (List Char)
  | '\n' :: rest => some rest
  | '\r' :: '\n' :: rest => some rest
  | _ => none

def skipComment? : List Char → Option (List Char)
  | '#' :: rest =>
    let r := rest.dropWhile isPrintable
    if r.isEmpty || (skipNewline? r).isSome then some r else none
  | rest => some rest

def skipLineEnd? (s : List Char) : Option (List Char) :=
  match skipComment? (skipSpace s) with
  | some [] => some []
  | some r => skipNewline? r
  | none => none

def skipBlank? : Nat → List Char → Option (List Char)
  | 0, s => some s
  | steps + 1, s =>
    match skipComment? (skipSpace s) with
    | none => none
    | some r =>
      match skipNewline? r with
      | some r => skipBlank? steps r
      | none => some r

def scalarChar? (n : Nat) : Option Char :=
  if n < 0xD800 || (0xDFFF < n && n < 0x110000) then some (Char.ofNat n) else none

def hexChar? (width : Nat) (s : List Char) : Option (Char × List Char) :=
  let ds := s.take width
  if ds.length = width && ds.all (isDigitIn 16) then
    (scalarChar? (baseValue 16 ds)).map (·, s.drop width)
  else none

def escape? : List Char → Option (Char × List Char)
  | 'u' :: rest => hexChar? 4 rest
  | 'U' :: rest => hexChar? 8 rest
  | 'x' :: rest => hexChar? 2 rest
  | c :: rest =>
    ([('b', '\x08'), ('t', '\t'), ('n', '\n'), ('f', '\x0c'), ('r', '\r'), ('e', '\x1b'), ('"', '"'),
      ('\\', '\\')].lookup c).map (·, rest)
  | [] => none

def basicString? : Nat → List Char → Option (List Char × List Char)
  | 0, _ => none
  | steps + 1, s =>
    match s with
    | [] => none
    | '"' :: rest => some ([], rest)
    | '\\' :: rest =>
      match escape? rest with
      | some (c, r) => (basicString? steps r).map fun (t, r) => (c :: t, r)
      | none => none
    | c :: rest =>
      if isPrintable c then (basicString? steps rest).map fun (t, r) => (c :: t, r) else none

def literalString? : List Char → Option (List Char × List Char)
  | [] => none
  | c :: rest =>
    if c == '\'' then some ([], rest)
    else if isPrintable c then (literalString? rest).map fun (t, r) => (c :: t, r)
    else none

/-- The quotes that close a string of several lines: those that belong to the text, and what is behind
them. Two quotes may stand in front of the closing three. -/
def closing? (quote : Char) (s : List Char) : Option (List Char × List Char) :=
  let n := (s.takeWhile (· == quote)).length
  if n < 3 then none else some (List.replicate (min n 5 - 3) quote, s.drop (min n 5))

def skipContinuation? (s : List Char) : Option (List Char) :=
  (skipNewline? (skipSpace s)).map fun r =>
    r.dropWhile fun c => isSpace c || c == '\n' || c == '\r'

/-- The rest of a string of several lines; a backslash has a meaning only if `escapes` says so. -/
def multilineString? (quote : Char) (escapes : Bool) : Nat → List Char → Option (List Char × List Char)
  | 0, _ => none
  | steps + 1, s =>
    match closing? quote s with
    | some (t, r) => some (t, r)
    | none =>
      match s with
      | [] => none
      | '\n' :: rest => (multilineString? quote escapes steps rest).map fun (t, r) => ('\n' :: t, r)
      | '\r' :: '\n' :: rest =>
        (multilineString? quote escapes steps rest).map fun (t, r) => ('\r' :: '\n' :: t, r)
      | c :: rest =>
        if c == '\\' && escapes then
          match skipContinuation? rest with
          | some r => multilineString? quote escapes steps r
          | none =>
            match escape? rest with
            | some (x, r) => (multilineString? quote escapes steps r).map fun (t, r) => (x :: t, r)
            | none => none
        else if isPrintable c then
          (multilineString? quote escapes steps rest).map fun (t, r) => (c :: t, r)
        else none

def dropNewline (s : List Char) : List Char :=
  (skipNewline? s).getD s

def string? (s : List Char) : Option (String × List Char) :=
  let found := match s with
    | '"' :: '"' :: '"' :: rest => multilineString? '"' true (s.length + 1) (dropNewline rest)
    | '\'' :: '\'' :: '\'' :: rest => multilineString? '\'' false (s.length + 1) (dropNewline rest)
    | '"' :: rest => basicString? (s.length + 1) rest
    | '\'' :: rest => literalString? rest
    | _ => none
  found.map fun (t, r) => (String.ofList t, r)

end Granularity.Toml
