import Granularity.Command.Arguments
import Granularity.FileTree.Write
import Granularity.Settings.Discovery
import Granularity.Report.Format
import Granularity.Report.Summary
import Granularity.Analysis

namespace Granularity

structure CommandOutcome where
  stdout : String
  failure? : Option (List String)
  log : Log
  tree : FileTree

def Settings.overriddenBy (s : Settings) (a : Arguments) : Settings :=
  { s with workers := {
      enabled := s.workers.enabled && !a.noParallel
      jobs := match a.jobs with
        | some jobs => some jobs
        | none => s.workers.jobs } }

def Settings.assemble (t : FileTree) (a : Arguments) (root : Path) (wording : Wording := .none) :
    Except (List String) Settings × Log :=
  match a.settings with
  | some path =>
    match Settings.load t path wording with
    | .ok s => (.ok (s.overriddenBy a), [])
    | .error e => (.error (("Failed to load configuration from " ++ path.text) :: e.chain), [])
  | none =>
    let (s, log) := Settings.discover t root wording
    (.ok (s.overriddenBy a), log)

def Report.print (r : Report) (format : Format) (v : View) : String :=
  match format with
  | .terminal => r.summary v
  | .json => r.write ++ "\n"

def Report.emit (r : Report) (t : FileTree) (format : Format) (output : Option Path) (v : View) : CommandOutcome :=
  let stdout := r.print format v
  match output with
  | none => ⟨stdout, none, [], t⟩
  | some path =>
    let change := t.writeFile path r.write.toUTF8
    match change.fault? with
    | some fault =>
      ⟨stdout, some ["Failed to write report to " ++ path.text, fault.message], [], change.tree⟩
    | none => ⟨stdout, none, [Log.info ("Report written to " ++ path.text)], change.tree⟩

/-- Runs the command on a file tree; `colour` says whether the terminal takes colours. -/
def Arguments.run (a : Arguments) (t : FileTree) (colour : Bool) (wording : Wording := .none) : CommandOutcome :=
  let root := Analysis.resolveRoot a.repository a.module?
  if t.pathExists root then
    match Settings.assemble t a root wording with
    | (.error chain, log) => ⟨"", some chain, log, t⟩
    | (.ok s, log) =>
      match Analysis.run t root s with
      | .error e => ⟨"", some e.chain, log, t⟩
      | .ok outcome =>
        let report := Report.build outcome.results a.severity
        let view : View := ⟨a.verbosity, colour && !a.plain, s.weights⟩
        let emitted := report.emit t a.format a.output view
        { emitted with log := log ++ outcome.log ++ emitted.log }
  else ⟨"", some (AnalysisError.rootNotFound root).chain, [], t⟩

def CommandOutcome.stderr? (o : CommandOutcome) : Option String :=
  o.failure?.map fun chain => "Error: " ++ chainText chain

def CommandOutcome.exitCode (o : CommandOutcome) : Nat :=
  if o.failure?.isSome then 1 else 0

end Granularity
