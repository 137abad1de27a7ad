import Granularity.Report.Basic
import Granularity.Report.Style
import Granularity.Detector

namespace Granularity

open Decimal (fixed)

structure View where
  verbosity : Nat
  colour : Bool
  weights : Weights

def Severity.style : Severity → Style
  | .high => .boldRed
  | .medium => .yellow
  | .low => .plain

def topIssues : Nat := 5

def rule : String :=
  String.ofList (List.replicate 60 '=')

def Issue.summaryLines (v : View) (number : Nat) (i : Issue) : List String :=
  let score := fixed 2 i.score ++ "/" ++ fixed 1 v.weights.maxScore
  let parts := i.breakdown v.weights
  ["",
    toString number ++ ". [" ++ i.severity.style.paint v.colour i.severity.label ++ "] " ++ i.kind.label ++
      " - Risk Score: " ++ Style.brightYellow.paint v.colour score,
    "   " ++ i.description,
    "   Input: " ++ i.schema ++ ", Map: " ++ i.container] ++
  (if i.missing.isEmpty then []
    else ["   Missing: " ++ Style.brightRed.paint v.colour (commaList i.missing)]) ++
  (if v.verbosity < 1 then []
    else ["   Score: severity " ++ fixed 2 parts.severity ++ " + pattern " ++ fixed 2 parts.kind ++
      " + dimensions " ++ fixed 2 parts.dimensions ++ " + files " ++ fixed 2 parts.files]) ++
  (if v.verbosity < 2 then [] else i.files.map fun file => "   File: " ++ file.text)

def Fix.summaryLine (f : Fix) : String :=
  "  " ++ f.tier.label ++ " (" ++ toString f.count ++ "): " ++ f.action

def Counts.summaryLines (v : View) (c : Counts) : List String :=
  ["Total Issues Found: " ++ toString c.issues,
    "  High Severity: " ++ toString c.high,
    "  Medium Severity: " ++ toString c.medium,
    "  Low Severity: " ++ toString c.low,
    "",
    "Input Schemas Analyzed: " ++ toString c.schemas,
    "Map Structures Found: " ++ toString c.containers,
    "Getter Methods Found: " ++ toString c.accessors] ++
  (if c.skipped = 0 then []
    else [Style.yellow.paint v.colour ("Files Skipped: " ++ toString c.skipped)])

namespace Report

def findingLines (v : View) (r : Report) : List String :=
  if r.issues.isEmpty then ["", Style.green.paint v.colour "No granularity mismatches detected."]
  else
    ["", Style.brightBlue.paint v.colour "ACTION PLAN:"] ++ r.fixes.map Fix.summaryLine ++
    ["", Style.brightBlue.paint v.colour ("TOP " ++ toString topIssues ++ " ISSUES:")] ++
    ((r.issues.take topIssues).zipIdx 1).flatMap fun (i, number) => i.summaryLines v number

def summaryLines (v : View) (r : Report) : List String :=
  [rule, Style.bold.paint v.colour "GRANULARITY MISMATCH DETECTION SUMMARY", rule] ++
    r.counts.summaryLines v ++ r.findingLines v

def summary (v : View) (r : Report) : String :=
  String.join ((r.summaryLines v).map (· ++ "\n"))

end Report

end Granularity
