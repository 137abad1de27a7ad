import Granularity.Text.Infix

namespace Granularity

inductive Style where
  | bold
  | yellow
  | green
  | brightBlue
  | brightYellow
  | brightRed
  | boldRed
  | plain
  deriving DecidableEq

namespace Style

def codes? : Style → Option String
  | .bold => some "1"
  | .yellow => some "33"
  | .green => some "32"
  | .brightBlue => some "94"
  | .brightYellow => some "93"
  | .brightRed => some "91"
  | .boldRed => some "1;31"
  | .plain => none

def opening (codes : String) : List Char :=
  '\x1b' :: '[' :: codes.toList ++ ['m']

def reset : List Char := ['\x1b', '[', '0', 'm']

/-- A text between the opening code of a style and a reset, if colours are on. A reset inside the text
is followed by the opening code again, so that the style holds to the end. -/
def paint (style : Style) (colour : Bool) (text : String) : String :=
  match colour, style.codes? with
  | true, some codes =>
    String.ofList (opening codes ++
      Text.replaceFrom reset (reset ++ opening codes) 0 text.toList ++ reset)
  | _, _ => text

end Style

end Granularity
