import Granularity.Settings.Basic
import Granularity.Toml.Reader

/-!
Settings from a TOML document. What a document leaves out keeps its default, and what it has beyond
the known names is ignored. A section is a table, or an array that gives its fields in their order.
-/

namespace Granularity

namespace Toml

abbrev Section := Nat → String → Option Toml

def section? : Toml → Option Section
  | .table _ fields => some fun _ name => get? name fields
  | .array items => some fun number _ => items[number]?
  | .tables items => some fun number _ => items[number]?.map (.table .header)
  | .dateTime => some fun _ _ => none
  | _ => none

def text? : Toml → Option String
  | .string s => some s
  | _ => none

def texts? : Toml → Option (List String)
  | .array items => items.mapM text?
  | _ => none

def truth? : Toml → Option Bool
  | .boolean b => some b
  | _ => none

def real? : Toml → Option Float
  | .float x => some x
  | .integer n =>
    if -0x8000000000000000 ≤ n && n < 0x10000000000000000 then
      some (if 0 ≤ n then Float.ofNat n.toNat else -Float.ofNat (-n).toNat)
    else none
  | _ => none

def count? : Toml → Option Nat
  | .integer n => if 0 ≤ n && n < 0x10000000000000000 then some n.toNat else none
  | _ => none

/-- A field if it is there, else its default; `none` if its type is wrong. -/
def fieldOr {α : Type} (read : Toml → Option α) (s : Section) (number : Nat) (name : String) (default : α) :
    Option α :=
  match s number name with
  | some v => read v
  | none => some default

end Toml

open Toml

def SourceLayout.ofSection? (s : Section) : Option SourceLayout := do
  let d := SourceLayout.default
  return {
    records := ⟨← fieldOr text? s 0 "records_root" d.records.text⟩
    containers := ⟨← fieldOr text? s 1 "containers_root" d.containers.text⟩
    validations := ⟨← fieldOr text? s 2 "validations_root" d.validations.text⟩
    extensions := ← fieldOr texts? s 3 "extensions" d.extensions }

def Conventions.ofSection? (s : Section) : Option Conventions := do
  let d := Conventions.default
  return {
    recordSuffix := ← fieldOr text? s 0 "record_suffix" d.recordSuffix
    containerSuffix := ← fieldOr text? s 1 "container_suffix" d.containerSuffix
    keyType := ← fieldOr text? s 2 "key_type" d.keyType
    warningCall := ← fieldOr text? s 3 "warning_call" d.warningCall
    naturalKeyWords := ← fieldOr texts? s 4 "natural_key_keywords" d.naturalKeyWords
    multiDimensionWords := ← fieldOr texts? s 5 "multi_dimension_keywords" d.multiDimensionWords }

def Weights.ofSection? (s : Section) : Option Weights := do
  let d := Weights.default
  return {
    highSeverity := ← fieldOr real? s 0 "high_severity" d.highSeverity
    mediumSeverity := ← fieldOr real? s 1 "medium_severity" d.mediumSeverity
    lowSeverity := ← fieldOr real? s 2 "low_severity" d.lowSeverity
    inputLoss := ← fieldOr real? s 3 "pattern_a" d.inputLoss
    crossAccess := ← fieldOr real? s 4 "pattern_b" d.crossAccess
    softWarning := ← fieldOr real? s 5 "pattern_c" d.softWarning
    perDimension := ← fieldOr real? s 6 "per_dimension" d.perDimension
    dimensionCap := ← fieldOr real? s 7 "dimension_cap" d.dimensionCap
    perFile := ← fieldOr real? s 8 "per_file" d.perFile
    fileCap := ← fieldOr real? s 9 "file_cap" d.fileCap }

def Workers.ofSection? (s : Section) : Option Workers := do
  let d := Workers.default
  return {
    enabled := ← fieldOr truth? s 0 "enabled" d.enabled
    jobs := ← fieldOr (fun v => (Toml.count? v).map some) s 1 "jobs" d.jobs }

namespace Settings

def sectionOr {α : Type} (read : Section → Option α) (fields : Fields) (name : String) (default : α) :
    Option α :=
  match get? name fields with
  | some v => (section? v).bind read
  | none => some default

def ofFields? (fields : Fields) : Option Settings := do
  return {
    layout := ← sectionOr SourceLayout.ofSection? fields "layout" .default
    conventions := ← sectionOr Conventions.ofSection? fields "conventions" .default
    weights := ← sectionOr Weights.ofSection? fields "scoring" .default
    workers := ← sectionOr Workers.ofSection? fields "parallel" .default }

def parse (text : String) : Except SettingsError Settings :=
  match (Toml.parse? text).bind ofFields? with
  | some s => s.validate
  | none => .error .malformed

end Settings

end Granularity
