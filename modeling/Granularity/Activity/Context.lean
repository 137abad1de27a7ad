import Granularity.Path

/-!
What an analysis is doing at the moment: the phase, the file and the detector. A scope sets one of
them; closing it brings back the whole context from before it was opened. Each thread has a context of
its own, the counters are shared.
-/

namespace Granularity

inductive Phase where
  | schemaExtraction
  | mapExtraction
  | accessorExtraction
  | detection
  | scoring
  | reporting
  deriving DecidableEq

namespace Phase

def name : Phase → String
  | .schemaExtraction => "schema_extraction"
  | .mapExtraction => "map_extraction"
  | .accessorExtraction => "accessor_extraction"
  | .detection => "detection"
  | .scoring => "scoring"
  | .reporting => "reporting"

def all : List Phase :=
  [.schemaExtraction, .mapExtraction, .accessorExtraction, .detection, .scoring, .reporting]

def ofName? (s : String) : Option Phase :=
  all.find? (·.name == s)

end Phase

structure Context where
  phase : Option Phase
  file : Option Path
  detector : Option String
  deriving DecidableEq

def Context.empty : Context := ⟨none, none, none⟩

inductive Scope where
  | phase (p : Phase)
  | file (path : Path)
  | detector (name : String)
  deriving DecidableEq

def Context.enter (c : Context) : Scope → Context
  | .phase p => { c with phase := some p }
  | .file path => { c with file := some path }
  | .detector name => { c with detector := some name }

structure Progress where
  processed : Nat
  total : Nat
  deriving DecidableEq

namespace Progress

def none : Progress := ⟨0, 0⟩

def reset (p : Progress) : Progress :=
  { p with processed := 0 }

def expect (p : Progress) (total : Nat) : Progress :=
  { p with total }

/-- Begins to count anew. The counters are set one after the other, the files that are done first. -/
def start (p : Progress) (total : Nat) : Progress :=
  p.reset.expect total

def increment (p : Progress) : Progress :=
  { p with processed := p.processed + 1 }

def percent (p : Progress) : Nat :=
  p.processed * 100 / p.total

end Progress

/-- The context of a thread, and for each of its scopes, in the order of their opening, the context
that closing it brings back. -/
structure Thread where
  context : Context
  saved : List (Option Context)

namespace Thread

def enter (t : Thread) (scope : Scope) : Thread :=
  { context := t.context.enter scope, saved := t.saved ++ [some t.context] }

/-- Closes a scope. One that was never opened, or is closed already, changes nothing. -/
def leave (t : Thread) (number : Nat) : Thread :=
  match t.saved[number]? with
  | some (some c) => { context := c, saved := t.saved.set number none }
  | _ => t

end Thread

structure Session extends Thread where
  progress : Progress

namespace Session

def initial : Session := ⟨⟨.empty, []⟩, .none⟩

def enter (s : Session) (scope : Scope) : Session :=
  { s with toThread := s.toThread.enter scope }

def leave (s : Session) (number : Nat) : Session :=
  { s with toThread := s.toThread.leave number }

def start (s : Session) (total : Nat) : Session :=
  { s with progress := s.progress.start total }

def increment (s : Session) : Nat → Session
  | 0 => s
  | times + 1 => { s with progress := s.progress.increment }.increment times

def elsewhere (s : Session) : Session :=
  { s with context := .empty }

end Session

end Granularity
