import Granularity.Path
import Granularity.Settings.Conventions
import Granularity.Settings.Weights

namespace Granularity

structure SourceLayout where
  records : Path
  containers : Path
  validations : Path
  extensions : List String
  deriving DecidableEq

def SourceLayout.default : SourceLayout where
  records := ⟨"src/main/java/com/increff/irisx/row/input"⟩
  containers := ⟨"src/main/java/com/increff/irisx/data"⟩
  validations := ⟨"src/main/java/com/increff/irisx/validation"⟩
  extensions := ["java"]

structure Workers where
  enabled : Bool
  jobs : Option Nat
  deriving DecidableEq

def Workers.default : Workers where
  enabled := true
  jobs := none

/-- The number of workers that was asked for; without it, or with zero, all cores work. -/
def Workers.count? (w : Workers) : Option Nat :=
  w.jobs.filter (0 < ·)

structure Settings where
  layout : SourceLayout
  conventions : Conventions
  weights : Weights
  workers : Workers

def Settings.default : Settings where
  layout := .default
  conventions := .default
  weights := .default
  workers := .default

instance : Inhabited Settings := ⟨.default⟩

inductive SettingsError where
  | malformed
  | weight (name : String) (value : Float)
  | identifier (name : String) (value : String)
  | noKeyWords

def settingsFile : String := ".grainmap.toml"

/-- What the reader of documents says about a text that it refuses. -/
abbrev Wording := String → String

def Wording.none : Wording := fun _ => ""

/-- What is said about rejected settings; `reader` is what the reader of documents has to say. -/
def SettingsError.message (e : SettingsError) (reader : String := "") : String :=
  match e with
  | .malformed => "Failed to parse " ++ settingsFile ++ ": " ++ reader
  | .weight name value =>
    "scoring weight '" ++ name ++ "' must be a non-negative number, got " ++
      Decimal.Layout.sentence.write value
  | .identifier name value =>
    "conventions." ++ name ++ " must be a non-empty identifier, got '" ++ value ++ "'"
  | .noKeyWords => "conventions.natural_key_keywords must not be empty"

def isIdentifier (s : String) : Bool :=
  !s.isEmpty && s.toList.all fun c => c.isAlphanum || c == '_'

def Conventions.identifiers (c : Conventions) : List (String × String) :=
  [("record_suffix", c.recordSuffix), ("container_suffix", c.containerSuffix), ("key_type", c.keyType),
    ("warning_call", c.warningCall)]

def Conventions.fault? (c : Conventions) : Option SettingsError :=
  match c.identifiers.find? fun e => !isIdentifier e.2 with
  | some (name, value) => some (.identifier name value)
  | none => if c.naturalKeyWords.all String.isEmpty then some .noKeyWords else none

def Settings.fault? (s : Settings) : Option SettingsError :=
  match s.weights.firstUnsound? with
  | some (name, value) => some (.weight name value)
  | none => s.conventions.fault?

def Settings.validate (s : Settings) : Except SettingsError Settings :=
  match s.fault? with
  | some e => .error e
  | none => .ok s

end Granularity
