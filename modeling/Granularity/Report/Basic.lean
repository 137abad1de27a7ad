import Granularity.Model
import Granularity.Priority
import Granularity.Failure

namespace Granularity

structure Results where
  projectPath : Path
  models : Models
  issues : List Issue
  warnings : List Failure

/-- The counts of a report. Those of issues are about the listed ones, those of models and files about
the whole run. -/
structure Counts where
  issues : Nat
  high : Nat
  medium : Nat
  low : Nat
  schemas : Nat
  containers : Nat
  accessors : Nat
  skipped : Nat
  deriving DecidableEq

structure Report where
  counts : Counts
  issues : List Issue
  fixes : List Fix

def filterBySeverity (severity : Option Severity) (l : List Issue) : List Issue :=
  match severity with
  | some s => l.filter (·.severity == s)
  | none => l

def countSeverity (s : Severity) (l : List Issue) : Nat :=
  (l.filter (·.severity == s)).length

def Report.build (r : Results) (severity : Option Severity) : Report :=
  let issues := filterBySeverity severity r.issues
  { counts := {
      issues := issues.length
      high := countSeverity .high issues
      medium := countSeverity .medium issues
      low := countSeverity .low issues
      schemas := r.models.schemaCount
      containers := r.models.containerCount
      accessors := r.models.accessorCount
      skipped := r.warnings.length }
    issues
    fixes := prioritize issues }

end Granularity
