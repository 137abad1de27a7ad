import Granularity.Path

namespace Granularity

inductive Severity where
  | high
  | medium
  | low
  deriving DecidableEq

namespace Severity

def label : Severity → String
  | .high => "HIGH"
  | .medium => "MEDIUM"
  | .low => "LOW"

def all : List Severity := [.high, .medium, .low]

def ofLabel? (s : String) : Option Severity :=
  all.find? (·.label == s)

structure Unknown where
  text : String
  deriving DecidableEq

def Unknown.message (e : Unknown) : String :=
  "unknown severity '" ++ e.text ++ "'"

def parse (s : String) : Except Unknown Severity :=
  let capitals := String.ofList (s.toList.map Char.toUpper)
  match ofLabel? capitals with
  | some severity => .ok severity
  | none => .error ⟨capitals⟩

end Severity

/-- A map key lacks a natural key of the record it holds, an accessor lacks a component of the map key, or a condition
on several dimensions is only warned about. -/
inductive IssueKind where
  | inputLoss
  | crossAccess
  | softWarning
  deriving DecidableEq

namespace IssueKind

def label : IssueKind → String
  | .inputLoss => "PATTERN_A"
  | .crossAccess => "PATTERN_B"
  | .softWarning => "PATTERN_C"

def all : List IssueKind := [.inputLoss, .crossAccess, .softWarning]

def ofLabel? (s : String) : Option IssueKind :=
  all.find? (·.label == s)

end IssueKind

/-- One mismatch. The score is zero until it is scored. -/
structure Issue where
  severity : Severity
  kind : IssueKind
  description : String
  schema : String
  container : String
  missing : List String
  files : List Path
  recommendations : List String
  score : Float

end Granularity
