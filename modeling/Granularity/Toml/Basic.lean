namespace Granularity

/-- How a table came to be, which decides who may add to it: by its own header, by one further down, by a dotted key,
or in braces. -/
inductive TableForm where
  | header
  | implied
  | dotted
  | inline
  deriving DecidableEq

inductive Toml where
  | string (s : String)
  | integer (n : Int)
  | float (x : Float)
  | boolean (b : Bool)
  | dateTime
  | array (items : List Toml)
  /-- an array that grows by headers in double brackets -/
  | tables (items : List (List (String × Toml)))
  | table (form : TableForm) (fields : List (String × Toml))

namespace Toml

abbrev Fields := List (String × Toml)

def alter (key : String) (change : Option Toml → Option Toml) : Fields → Option Fields
  | [] => (change none).map fun v => [(key, v)]
  | (k, v) :: rest =>
    if k = key then (change (some v)).map fun v => (k, v) :: rest
    else (alter key change rest).map ((k, v) :: ·)

def alterLast (change : Fields → Option Fields) : List Fields → Option (List Fields)
  | [] => none
  | [t] => (change t).map fun t => [t]
  | t :: ts => (alterLast change ts).map (t :: ·)

/-- Changes the table that the keys of a header lead to. Tables on the way are made where they are
missing; of an array of tables the last one counts; a table in braces is closed. -/
def descend (change : Fields → Option Fields) : List String → Fields → Option Fields
  | [], fields => change fields
  | key :: keys, fields =>
    alter key (fun old =>
      match old with
      | none => (descend change keys []).map (.table .implied)
      | some (.table .inline _) => none
      | some (.table form inner) => (descend change keys inner).map (.table form)
      | some (.tables items) => (alterLast (descend change keys) items).map .tables
      | some _ => none) fields

def insertNew (key : String) (value : Toml) (fields : Fields) : Option Fields :=
  alter key (fun old => match old with
    | none => some value
    | some _ => none) fields

/-- Puts a value under a dotted key. The tables on the way may be new or have been made by dotted
keys; one implied by a header may be passed through, but not be added to. -/
def insertDotted (value : Toml) : List String → String → Fields → Option Fields
  | [], last, fields => insertNew last value fields
  | key :: keys, last, fields =>
    alter key (fun old =>
      match old with
      | none => (insertDotted value keys last []).map (.table .dotted)
      | some (.table .dotted inner) => (insertDotted value keys last inner).map (.table .dotted)
      | some (.table .implied inner) =>
        if keys.isEmpty then none else (insertDotted value keys last inner).map (.table .implied)
      | some (.tables items) =>
        if keys.isEmpty then none else (alterLast (insertDotted value keys last) items).map .tables
      | some _ => none) fields

def openTable (key : String) (fields : Fields) : Option Fields :=
  alter key (fun old => match old with
    | none => some (.table .header [])
    | some (.table .implied inner) => some (.table .header inner)
    | some _ => none) fields

def openArrayTable (key : String) (fields : Fields) : Option Fields :=
  alter key (fun old => match old with
    | none => some (.tables [[]])
    | some (.tables items) => some (.tables (items ++ [[]]))
    | some _ => none) fields

def get? (key : String) (fields : Fields) : Option Toml :=
  fields.lookup key

end Toml

end Granularity
