namespace Granularity

inductive Level where
  | error
  | warn
  | info
  | debug
  | trace
  deriving DecidableEq, Inhabited

def Level.rank : Level → Nat
  | .error => 1
  | .warn => 2
  | .info => 3
  | .debug => 4
  | .trace => 5

def Level.name : Level → String
  | .error => "ERROR"
  | .warn => "WARN"
  | .info => "INFO"
  | .debug => "DEBUG"
  | .trace => "TRACE"

structure LogEntry where
  level : Level
  message : String
  deriving DecidableEq

abbrev Log := List LogEntry

namespace Log

def warn (message : String) : LogEntry := ⟨.warn, message⟩

def info (message : String) : LogEntry := ⟨.info, message⟩

def debug (message : String) : LogEntry := ⟨.debug, message⟩

def atLeast (level : Level) (log : Log) : Log :=
  log.filter fun e => e.level.rank ≤ level.rank

end Log

end Granularity
