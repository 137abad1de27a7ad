import Granularity.Path
import Granularity.Issue
import Granularity.Log
import Granularity.Decimal.Read

/-!
The command line. Options may stand before and behind the repository; a value follows its option as
the next argument, behind an equals sign, or right behind a short name. Behind `--` there are no
options. A value is looked at when the next argument begins, so of two faults the first is reported,
but an argument that nobody knows is reported before a bad value in front of it.
-/

namespace Granularity

inductive Format where
  | terminal
  | json
  deriving DecidableEq

def Format.name : Format → String
  | .terminal => "terminal"
  | .json => "json"

structure Arguments where
  repository : Path
  output : Option Path
  severity : Option Severity
  module? : Option String
  settings : Option Path
  format : Format
  noParallel : Bool
  jobs : Option Nat
  verbosity : Nat
  plain : Bool
  deriving DecidableEq

inductive UsageError where
  | missingRequired
  | unknownArgument
  | invalidValue
  | valueValidation
  | conflict
  | tooManyValues
  | help
  | version
  deriving DecidableEq

def UsageError.exitCode : UsageError → Nat
  | .help => 0
  | .version => 0
  | _ => 2

def logLevel : Nat → Level
  | 0 => .warn
  | 1 => .info
  | 2 => .debug
  | _ => .trace

namespace CommandLine

inductive Slot where
  | repository
  | output
  | severity
  | module
  | settings
  | format
  | jobs
  deriving DecidableEq

inductive Switch where
  | noParallel
  | plain
  | verbose
  | help
  | version
  deriving DecidableEq

inductive Known where
  | slot (s : Slot)
  | switch (s : Switch)
  deriving DecidableEq

def longName? (name : String) : Option Known :=
  [("output", .slot .output), ("severity", .slot .severity), ("module", .slot .module),
    ("config", .slot .settings), ("format", .slot .format), ("jobs", .slot .jobs),
    ("no-parallel", .switch .noParallel), ("plain", .switch .plain), ("verbose", .switch .verbose),
    ("help", .switch .help), ("version", .switch .version)].lookup name

def shortName? (c : Char) : Option Known :=
  [('o', .slot .output), ('s', .slot .severity), ('m', .slot .module), ('c', .slot .settings),
    ('f', .slot .format), ('j', .slot .jobs), ('v', .switch .verbose), ('h', .switch .help),
    ('V', .switch .version)].lookup c

structure Draft where
  repository : Option Path
  output : Option Path
  severity : Option Severity
  module? : Option String
  settings : Option Path
  format : Option Format
  jobs : Option Nat
  noParallel : Bool
  plain : Bool
  verbosity : Nat
  pending : Option (Slot × Option String)

def Draft.empty : Draft where
  repository := none
  output := none
  severity := none
  module? := none
  settings := none
  format := none
  jobs := none
  noParallel := false
  plain := false
  verbosity := 0
  pending := none

def Draft.isFilled (d : Draft) : Slot → Bool
  | .repository => d.repository.isSome
  | .output => d.output.isSome
  | .severity => d.severity.isSome
  | .module => d.module?.isSome
  | .settings => d.settings.isSome
  | .format => d.format.isSome
  | .jobs => d.jobs.isSome

def path (s : String) : Except UsageError Path :=
  if s.isEmpty then .error .invalidValue else .ok ⟨s⟩

/-- A number of workers that fits a word of 64 bits; a plus sign may stand in front. -/
def jobCount (s : String) : Except UsageError Nat :=
  let digits := match s.toList with
    | '+' :: rest => rest
    | rest => rest
  let n := Decimal.digitsValue digits
  if !digits.isEmpty && digits.all (fun c => '0' ≤ c && c ≤ '9') && n < 0x10000000000000000 then .ok n
  else .error .valueValidation

def Draft.fill (d : Draft) (slot : Slot) (value : String) : Except UsageError Draft :=
  match slot with
  | .repository => do return { d with repository := some (← path value) }
  | .output => do return { d with output := some (← path value) }
  | .settings => do return { d with settings := some (← path value) }
  | .module => .ok { d with module? := some value }
  | .jobs => do return { d with jobs := some (← jobCount value) }
  | .severity =>
    match Severity.parse value with
    | .ok s => .ok { d with severity := some s }
    | .error _ => .error .valueValidation
  | .format =>
    match [Format.terminal, Format.json].find? (·.name == value) with
    | some f => .ok { d with format := some f }
    | none => .error .invalidValue

def Draft.give (d : Draft) (slot : Slot) (value : Option String) : Except UsageError Draft :=
  match value with
  | none => .error .invalidValue
  | some value => if d.isFilled slot then .error .conflict else d.fill slot value

def Draft.settle (d : Draft) : Except UsageError Draft :=
  match d.pending with
  | none => .ok d
  | some (slot, value) => { d with pending := none }.give slot value

def Draft.turnOn (d : Draft) (s : Switch) : Except UsageError Draft := do
  let d ← d.settle
  match s with
  | .noParallel => if d.noParallel then .error .conflict else .ok { d with noParallel := true }
  | .plain => if d.plain then .error .conflict else .ok { d with plain := true }
  | .verbose => .ok { d with verbosity := min 255 (d.verbosity + 1) }
  | .help => .error .help
  | .version => .error .version

def Draft.option (d : Draft) (slot : Slot) (attached : Option String) : Except UsageError Draft := do
  let d ← d.settle
  match attached with
  | some value => d.give slot (some value)
  | none => .ok { d with pending := some (slot, none) }

def Draft.long (d : Draft) (s : List Char) : Except UsageError Draft :=
  let name := String.ofList (s.takeWhile (· != '='))
  let attached := match s.dropWhile (· != '=') with
    | _ :: value => some (String.ofList value)
    | [] => none
  match longName? name with
  | none => .error .unknownArgument
  | some (.slot slot) => d.option slot attached
  | some (.switch s) => if attached.isSome then .error .tooManyValues else d.turnOn s

def attachedValue : List Char → Option String
  | [] => none
  | '=' :: rest => some (String.ofList rest)
  | rest => some (String.ofList rest)

def Draft.short (d : Draft) : List Char → Except UsageError Draft
  | [] => .ok d
  | c :: rest =>
    match shortName? c with
    | none => .error .unknownArgument
    | some (.slot slot) => d.option slot (attachedValue rest)
    | some (.switch s) =>
      match d.turnOn s with
      | .ok d => d.short rest
      | .error e => .error e

def Draft.plainArgument (d : Draft) (s : String) (onlyPlain : Bool) : Except UsageError Draft :=
  match d.pending, onlyPlain with
  | some (.repository, _), _ => .error .unknownArgument
  | some (slot, none), false => .ok { d with pending := some (slot, some s) }
  | _, _ =>
    if d.repository.isSome then .error .unknownArgument
    else do
      let d ← d.settle
      return { d with pending := some (.repository, some s) }

def Draft.read (d : Draft) (onlyPlain : Bool) : List String → Except UsageError Draft
  | [] => d.settle
  | arg :: args =>
    let next : Except UsageError (Draft × Bool) :=
      if onlyPlain then (d.plainArgument arg true).map (·, true)
      else match arg.toList with
        | ['-', '-'] => .ok (d, true)
        | '-' :: '-' :: name => (d.long name).map (·, false)
        | ['-'] => (d.plainArgument arg false).map (·, false)
        | '-' :: letters => (d.short letters).map (·, false)
        | _ => (d.plainArgument arg false).map (·, false)
    match next with
    | .ok (d, onlyPlain) => d.read onlyPlain args
    | .error e => .error e

/-- The number of workers from the environment counts where the command line gives none. -/
def Draft.withEnvironment (d : Draft) (jobs : Option String) : Except UsageError Draft :=
  match d.jobs, jobs with
  | none, some value => d.fill .jobs value
  | _, _ => .ok d

end CommandLine

def Arguments.parse (args : List String) (jobsVariable : Option String) : Except UsageError Arguments := do
  let d ← CommandLine.Draft.empty.read false args
  let d ← d.withEnvironment jobsVariable
  match d.repository with
  | none => .error .missingRequired
  | some repository =>
    return {
      repository
      output := d.output
      severity := d.severity
      module? := d.module?
      settings := d.settings
      format := d.format.getD .terminal
      noParallel := d.noParallel
      jobs := d.jobs
      verbosity := d.verbosity
      plain := d.plain }

end Granularity
