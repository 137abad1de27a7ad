import Granularity.Activity.Context

namespace Granularity

structure Crash where
  message : Option String
  time : Option String
  location : Option String
  context : Context
  progress : Progress

namespace Crash

def version : String := "0.3.0"

def platform : String := "linux"

def rule : String :=
  String.ofList (List.replicate 80 '=')

def contextLines (c : Context) (p : Progress) : List String :=
  [match c.phase with
    | some phase => "Phase:    " ++ phase.name
    | none => "Phase:    (not set - crash occurred before analysis started)"] ++
  (c.detector.map fun name => "Detector: " ++ name).toList ++
  (c.file.map fun path => "File:     " ++ path.text).toList ++
  (if p.total = 0 then []
    else ["Progress: " ++ toString p.processed ++ " / " ++ toString p.total ++ " files (" ++
      toString p.percent ++ "%)"])

def lines (c : Crash) : List String :=
  [rule, "GRAINMAP CRASH REPORT", rule, "Version:  " ++ version, "Platform: " ++ platform] ++
  (c.time.map fun time => "Time:     " ++ time).toList ++
  ["Panic:    " ++ c.message.getD "Unknown panic"] ++
  (c.location.map fun location => "Location: " ++ location).toList ++
  contextLines c.context c.progress ++ [rule]

def report (c : Crash) : String :=
  "\n".intercalate c.lines

end Crash

end Granularity
