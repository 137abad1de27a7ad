import Granularity.Text.Line
import Granularity.Text.Blank
import Granularity.Text.Infix
import Granularity.Path

namespace Granularity

open Text

structure WarningSite where
  path : Path
  line : Nat
  text : String
  deriving DecidableEq

namespace WarningSite

def read (call : String) (path : Path) (content : List Char) : List WarningSite :=
  ((numberedLines content).filter fun line => hasInfix call.toList line.1).map fun line =>
    { path, line := line.2, text := String.ofList (trim line.1) }

end WarningSite

end Granularity
