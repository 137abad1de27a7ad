import Granularity.Settings.File
import Granularity.FileTree.Basic
import Granularity.Failure

namespace Granularity

namespace Settings

def searchDepth : Nat := 10

/-- The settings in one place of the search, if they are readable and acceptable. Only a file that is
simply missing goes without a warning. -/
def tryLoad (t : FileTree) (path : Path) (wording : Wording) : Option Settings × Log :=
  match t.readText path with
  | .error .missing => (none, [])
  | .error fault =>
    (none, [Log.warn ("Failed to read config file " ++ path.text ++ ": " ++ fault.message)])
  | .ok text =>
    match parse text with
    | .ok s => (some s, [Log.debug ("Loaded config from " ++ path.text)])
    | .error e => (none, [Log.warn (e.message (wording text) ++ " (" ++ path.text ++ "). Using defaults.")])

def firstOf (t : FileTree) (wording : Wording) : List Path → Settings × Log
  | [] =>
    (.default, [Log.debug ("No " ++ settingsFile ++ " within " ++ toString searchDepth ++
      " directories, using defaults")])
  | dir :: dirs =>
    match tryLoad t (dir.join ⟨settingsFile⟩) wording with
    | (some s, log) => (s, log)
    | (none, log) =>
      let (s, more) := firstOf t wording dirs
      (s, log ++ more)

def searchPath (t : FileTree) (start : Path) : List Path :=
  ((t.canonical? start).getD start).ancestors searchDepth

def discover (t : FileTree) (start : Path) (wording : Wording := .none) : Settings × Log :=
  firstOf t wording (searchPath t start)

def load (t : FileTree) (path : Path) (wording : Wording := .none) : Except AnalysisError Settings :=
  match t.readText path with
  | .error fault => .error (.unreadable path fault.message)
  | .ok text =>
    match parse text with
    | .ok s => .ok s
    | .error e => .error (.badSettings path (e.message (wording text)))

end Settings

end Granularity
