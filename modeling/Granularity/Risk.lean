import Granularity.Issue
import Granularity.Settings.Weights

namespace Granularity

structure Breakdown where
  severity : Float
  kind : Float
  dimensions : Float
  files : Float

def Breakdown.total (b : Breakdown) : Float :=
  b.severity + b.kind + b.dimensions + b.files

namespace Weights

def ofSeverity (w : Weights) : Severity → Float
  | .high => w.highSeverity
  | .medium => w.mediumSeverity
  | .low => w.lowSeverity

def ofKind (w : Weights) : IssueKind → Float
  | .inputLoss => w.inputLoss
  | .crossAccess => w.crossAccess
  | .softWarning => w.softWarning

def capped (each : Float) (n : Nat) (cap : Float) : Float :=
  smaller (each * Float.ofNat n) cap

end Weights

namespace Issue

def breakdown (w : Weights) (i : Issue) : Breakdown where
  severity := w.ofSeverity i.severity
  kind := w.ofKind i.kind
  dimensions := Weights.capped w.perDimension i.missing.length w.dimensionCap
  files := Weights.capped w.perFile i.files.length w.fileCap

def riskScore (w : Weights) (i : Issue) : Float :=
  (i.breakdown w).total

def scored (w : Weights) (i : Issue) : Issue :=
  { i with score := i.riskScore w }

end Issue

def scoreAll (w : Weights) (l : List Issue) : List Issue :=
  l.map (Issue.scored w)

/-- The place of a number in the total order of doubles: the negative ones in reverse order of their
bits, then the others. What is not a number counts as a negative one, below all. -/
def orderKey (x : Float) : Int :=
  if x.isNaN then -0x10000000000000000
  else
    let bits := x.toBits.toNat
    if bits < 0x8000000000000000 then (bits : Int) else (0x8000000000000000 : Int) - bits - 1

def rank (l : List Issue) : List Issue :=
  l.mergeSort fun a b => orderKey b.score ≤ orderKey a.score

end Granularity
