import Granularity.Text.Line
import Granularity.Text.Blank
import Granularity.Text.Infix
import Granularity.Pattern
import Granularity.Path

namespace Granularity

open Text

structure Accessor where
  method : String
  path : Path
  line : Nat
  parameters : List String
  returnType : String
  deriving DecidableEq

def accessorPattern : Pattern where
  atWordStart := false
  pieces := [.text "public".toList, .run isBlank, .run isWord, .run isBlank, .text "get".toList, .run isWord,
    .gap isBlank, .text ['('], .upTo (· != '\n'), .text [')']]

/-- The names bound in a parameter list: the last token of each declaration. -/
def parameterNames (run : List Char) : List String :=
  ((splitAt ',' run).filterMap fun part => (tokens part).getLast?).map String.ofList

namespace Accessor

def readLine? (path : Path) (line : List Char × Nat) : Option Accessor :=
  match accessorPattern.find? line.1 with
  | some [_, _, returnType, _, get, rest, _, _, run, _] =>
    some {
      method := String.ofList (get ++ rest)
      path
      line := line.2
      parameters := parameterNames run
      returnType := String.ofList returnType }
  | _ => none

def read (path : Path) (content : List Char) : List Accessor :=
  (numberedLines content).filterMap (readLine? path)

end Accessor

end Granularity
