import Granularity.Path
import Granularity.Log

namespace Granularity

inductive AnalysisError where
  | rootNotFound (path : Path)
  | unreadable (path : Path) (cause : String)
  /-- a naming convention is too long for a pattern to be made of it -/
  | badPattern (message : String)
  | badSettings (path : Path) (message : String)
  deriving DecidableEq

namespace AnalysisError

def message : AnalysisError → String
  | .rootNotFound path => "Repository path does not exist: " ++ path.text
  | .unreadable path _ => "Failed to read " ++ path.text
  | .badPattern message => "Invalid pattern: " ++ message
  | .badSettings path message => "Invalid configuration in " ++ path.text ++ ": " ++ message

def cause? : AnalysisError → Option String
  | .unreadable _ cause => some cause
  | _ => none

def chain (e : AnalysisError) : List String :=
  e.message :: e.cause?.toList

def path : AnalysisError → Path
  | .rootNotFound path => path
  | .unreadable path _ => path
  | .badPattern _ => .empty
  | .badSettings path _ => path

end AnalysisError

def chainText (chain : List String) : String :=
  ": ".intercalate chain

structure Failure where
  path : Path
  message : String
  deriving DecidableEq

def AnalysisError.toFailure (e : AnalysisError) : Failure :=
  ⟨e.path, chainText e.chain⟩

def Failure.logEntry (f : Failure) : LogEntry :=
  Log.warn ("Skipping " ++ f.path.text ++ ": " ++ f.message)

end Granularity
