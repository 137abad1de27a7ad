/-! JSON values. The fields of an object keep their order; of two with one name the later counts. -/

namespace Granularity

inductive Json where
  | null
  | bool (b : Bool)
  | int (n : Int)
  | float (x : Float)
  | string (s : String)
  | array (items : List Json)
  | object (fields : List (String × Json))

namespace Json

instance : Inhabited Json := ⟨null⟩

def nat (n : Nat) : Json := int n

def strings (l : List String) : Json :=
  array (l.map string)

def field? (j : Json) (name : String) : Option Json :=
  match j with
  | object fields => fields.reverse.lookup name
  | _ => none

def string? : Json → Option String
  | string s => some s
  | _ => none

def bool? : Json → Option Bool
  | bool b => some b
  | _ => none

def nat? : Json → Option Nat
  | int n => if 0 ≤ n && n < 0x10000000000000000 then some n.toNat else none
  | _ => none

/-- A number; a whole one is taken for the nearest double. -/
def float? : Json → Option Float
  | float x => some x
  | int n => some (if 0 ≤ n then Float.ofNat n.toNat else -Float.ofNat (-n).toNat)
  | _ => none

def array? : Json → Option (List Json)
  | array items => some items
  | _ => none

def object? : Json → Option (List (String × Json))
  | object fields => some fields
  | _ => none

def strings? (j : Json) : Option (List String) :=
  j.array?.bind fun items => items.mapM string?

mutual

def distinct : Json → Bool
  | array items => distinctItems items
  | object fields => distinctFields fields
  | _ => true

def distinctItems : List Json → Bool
  | [] => true
  | item :: items => item.distinct && distinctItems items

def distinctFields : List (String × Json) → Bool
  | [] => true
  | (name, value) :: fields => !fields.any (·.1 == name) && value.distinct && distinctFields fields

end

end Json

end Granularity
