import Granularity.Report.Basic
import Granularity.Json.Writer
import Granularity.Json.Reader

namespace Granularity

open Json

def Issue.toJson (i : Issue) : Json :=
  .object [
    ("severity", .string i.severity.label),
    ("issue_type", .string i.kind.label),
    ("description", .string i.description),
    ("input_schema", .string i.schema),
    ("map_variable", .string i.container),
    ("missing_dimensions", .strings i.missing),
    ("affected_files", .strings (i.files.map Path.text)),
    ("recommendations", .strings i.recommendations),
    ("risk_score", .float i.score)]

def Fix.toJson (f : Fix) : Json :=
  .object [
    ("priority", .string f.tier.label),
    ("count", .nat f.count),
    ("action", .string f.action),
    ("issues", .strings f.issues)]

def Counts.toJson (c : Counts) : Json :=
  .object [
    ("total_issues", .nat c.issues),
    ("high_severity", .nat c.high),
    ("medium_severity", .nat c.medium),
    ("low_severity", .nat c.low),
    ("input_schemas_analyzed", .nat c.schemas),
    ("map_structures_found", .nat c.containers),
    ("getter_methods_found", .nat c.accessors),
    ("files_skipped", .nat c.skipped)]

def Report.toJson (r : Report) : Json :=
  .object [
    ("summary", r.counts.toJson),
    ("issues", .array (r.issues.map Issue.toJson)),
    ("prioritized_fixes", .array (r.fixes.map Fix.toJson))]

def Report.write (r : Report) : String :=
  r.toJson.pretty

def Issue.ofJson? (j : Json) : Option Issue := do
  return {
    severity := ← (← j.field? "severity").string? >>= Severity.ofLabel?
    kind := ← (← j.field? "issue_type").string? >>= IssueKind.ofLabel?
    description := ← (← j.field? "description").string?
    schema := ← (← j.field? "input_schema").string?
    container := ← (← j.field? "map_variable").string?
    missing := ← (← j.field? "missing_dimensions").strings?
    files := (← (← j.field? "affected_files").strings?).map Path.mk
    recommendations := ← (← j.field? "recommendations").strings?
    score := ← (← j.field? "risk_score").float? }

def Fix.ofJson? (j : Json) : Option Fix := do
  return {
    tier := ← (← j.field? "priority").string? >>= Tier.ofLabel?
    count := ← (← j.field? "count").nat?
    action := ← (← j.field? "action").string?
    issues := ← (← j.field? "issues").strings? }

def Counts.ofJson? (j : Json) : Option Counts := do
  return {
    issues := ← (← j.field? "total_issues").nat?
    high := ← (← j.field? "high_severity").nat?
    medium := ← (← j.field? "medium_severity").nat?
    low := ← (← j.field? "low_severity").nat?
    schemas := ← (← j.field? "input_schemas_analyzed").nat?
    containers := ← (← j.field? "map_structures_found").nat?
    accessors := ← (← j.field? "getter_methods_found").nat?
    skipped := ← (← j.field? "files_skipped").nat? }

def Report.ofJson? (j : Json) : Option Report := do
  return {
    counts := ← (← j.field? "summary") |> Counts.ofJson?
    issues := ← (← (← j.field? "issues").array?).mapM Issue.ofJson?
    fixes := ← (← (← j.field? "prioritized_fixes").array?).mapM Fix.ofJson? }

/-- Reads a report back from its text. A number is taken for the nearest double, and a text that has a field twice is
refused. -/
def Report.read? (text : String) : Option Report :=
  (Json.parse? text).bind fun j => if j.distinct then Report.ofJson? j else none

end Granularity
