import Granularity.Decimal.Layout

namespace Granularity

structure Weights where
  highSeverity : Float
  mediumSeverity : Float
  lowSeverity : Float
  inputLoss : Float
  crossAccess : Float
  softWarning : Float
  perDimension : Float
  dimensionCap : Float
  perFile : Float
  fileCap : Float

namespace Weights

def default : Weights where
  highSeverity := 4
  mediumSeverity := 2
  lowSeverity := 0
  inputLoss := 3
  crossAccess := 1.5
  softWarning := 0
  perDimension := 0.5
  dimensionCap := 2
  perFile := 0.25
  fileCap := 1

instance : Inhabited Weights := ⟨.default⟩

def named (w : Weights) : List (String × Float) :=
  [("high_severity", w.highSeverity), ("medium_severity", w.mediumSeverity), ("low_severity", w.lowSeverity),
    ("pattern_a", w.inputLoss), ("pattern_b", w.crossAccess), ("pattern_c", w.softWarning),
    ("per_dimension", w.perDimension), ("dimension_cap", w.dimensionCap), ("per_file", w.perFile),
    ("file_cap", w.fileCap)]

def isSound (x : Float) : Bool :=
  x.isFinite && !(x < 0)

def firstUnsound? (w : Weights) : Option (String × Float) :=
  w.named.find? fun e => !isSound e.2

/-- The larger of two; one that is not a number gives way, and of two equal ones the first stays. -/
def larger (x y : Float) : Float :=
  if x.isNaN || x < y then y else x

def smaller (x y : Float) : Float :=
  if x.isNaN || y < x then y else x

def maxScore (w : Weights) : Float :=
  larger (larger w.highSeverity w.mediumSeverity) w.lowSeverity +
    larger (larger w.inputLoss w.crossAccess) w.softWarning + w.dimensionCap + w.fileCap

end Weights

end Granularity
