import Granularity.FileTree.Walk
import Granularity.Settings.Basic
import Granularity.Activity.Context
import Granularity.Detector
import Granularity.Report.Basic

/-!
An analysis: four stages that each read the files of one directory, then detection, scoring and
ranking. A file that cannot be read is skipped and noted; only a missing root ends the analysis.
-/

namespace Granularity

abbrev FileReader (α : Type) := Path → List Char → List α × Log

structure Target where
  root : Path
  directory : Path
  label : String
  extensions : List String

structure FileScan (α : Type) where
  result : Except Failure (List α)
  log : Log

structure StageScan (α : Type) where
  items : List α
  failures : List Failure
  scanned : Nat
  progress : Option Progress
  log : Log

def scanFile {α : Type} (t : FileTree) (root : Path) (read : FileReader α) (path : Path) : FileScan α :=
  let relative := path.relativeTo root
  match t.readText path with
  | .ok text =>
    let (items, log) := read relative text.toList
    ⟨.ok items, log⟩
  | .error fault =>
    let failure := (AnalysisError.unreadable relative fault.message).toFailure
    ⟨.error failure, [failure.logEntry]⟩

def FileScan.items {α : Type} (s : FileScan α) : List α :=
  match s.result with
  | .ok items => items
  | .error _ => []

def FileScan.failure? {α : Type} (s : FileScan α) : Option Failure :=
  match s.result with
  | .ok _ => none
  | .error failure => some failure

def StageScan.collect {α : Type} (found : FileTree.Discovery) (scans : List (FileScan α)) : StageScan α where
  items := scans.flatMap FileScan.items
  failures := found.failures ++ scans.filterMap FileScan.failure?
  scanned := found.files.length
  progress := some ⟨found.files.length, found.files.length⟩
  log := found.failures.map Failure.logEntry ++ scans.flatMap FileScan.log

def scan {α : Type} (t : FileTree) (target : Target) (read : FileReader α) : StageScan α :=
  if t.isDirectory target.directory then
    let found := t.walk target.directory target.extensions
    StageScan.collect found (found.files.map (scanFile t target.root read))
  else {
    items := []
    failures := []
    scanned := 0
    progress := none
    log := [Log.warn (target.label ++ " path not found: " ++ target.directory.text)] }

def StageScan.summary {α : Type} (s : StageScan α) (label : String) : LogEntry :=
  Log.debug (label ++ ": scanned " ++ toString s.scanned ++ " files, skipped " ++ toString s.failures.length)

namespace Analysis

structure Stages where
  schemas : StageScan Schema
  containers : StageScan (String × Container)
  accessors : StageScan Accessor
  warnings : StageScan WarningSite

def resolveRoot (repository : Path) (module? : Option String) : Path :=
  match module? with
  | some name => if name.isEmpty then repository else repository.join ⟨name⟩
  | none => repository

def target (s : Settings) (root directory : Path) (label : String) : Target :=
  ⟨root, root.join directory, label, s.layout.extensions⟩

def runStages (t : FileTree) (root : Path) (s : Settings) : Stages where
  schemas := scan t (target s root s.layout.records "Input row") fun path content =>
    let (schema, log) := Schema.read s.conventions path content
    (schema.toList, log)
  containers := scan t (target s root s.layout.containers "Data") (Container.read s.conventions)
  accessors := scan t (target s root s.layout.containers "Data") fun path content =>
    (Accessor.read path content, [])
  warnings := scan t (target s root s.layout.validations "Validation") fun path content =>
    (WarningSite.read s.conventions.warningCall path content, [])

def Stages.models (st : Stages) : Models where
  schemas := (indexSchemas st.schemas.items).1
  containers := .group st.containers.items
  accessors := .group (st.accessors.items.map fun a => (a.returnType, a))
  warnings := st.warnings.items

def Stages.failures (st : Stages) : List Failure :=
  st.schemas.failures ++ st.containers.failures ++ st.accessors.failures ++ st.warnings.failures

/-- The counters after the stages: those of the last stage that had a directory. -/
def Stages.progress (st : Stages) : Progress :=
  [st.schemas.progress, st.containers.progress, st.accessors.progress, st.warnings.progress].foldl
    (fun p next => next.getD p) .none

def found (n : Nat) (what : String) : LogEntry :=
  Log.info ("Found " ++ toString n ++ " " ++ what)

def Stages.log (st : Stages) : Log :=
  let m := st.models
  st.schemas.log ++ (indexSchemas st.schemas.items).2 ++ [found m.schemaCount "input schemas"] ++
  st.containers.log ++ [found m.containerCount "map structures"] ++
  st.accessors.log ++ [found m.accessorCount "getter methods"] ++
  st.warnings.log ++ [found m.warnings.length "validation warning sites"] ++
  [st.schemas.summary "schemas", st.containers.summary "map structures", st.accessors.summary "getters",
    st.warnings.summary "validations"]

structure Outcome where
  results : Results
  progress : Progress
  log : Log

/-- The conventions are escaped in the patterns made of them, so that a pattern can fail to be built only by its size.
They are taken to be short enough for the patterns to stay below the limit, and a `badPattern` does not come out of a
run. -/
def run (t : FileTree) (root : Path) (s : Settings) : Except AnalysisError Outcome :=
  if t.pathExists root then
    let stages := runStages t root s
    let models := stages.models
    let detectors := Detector.all s.conventions
    let issues := rank (scoreAll s.weights (Detector.run detectors models))
    .ok {
      results := { projectPath := root, models, issues, warnings := stages.failures }
      progress := stages.progress
      log := [Log.info ("Analyzing granularity in " ++ root.text)] ++ stages.log ++
        Detector.log detectors models ++
        [Log.info ("Analysis complete: " ++ toString issues.length ++ " issues, " ++
          toString stages.failures.length ++ " files skipped")] }
  else .error (.rootNotFound root)

end Analysis

end Granularity
