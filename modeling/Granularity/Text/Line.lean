/-!
The lines of a text. A line ends at a line feed, which takes one carriage return before it along; a
carriage return alone ends nothing.
-/

namespace Granularity.Text

def dropReturn : List Char → List Char
  | '\r' :: rest => rest
  | cs => cs

/-- The lines of `cs`, where `current` is the line being read, last character first. -/
def linesFrom (current : List Char) : List Char → List (List Char)
  | [] => if current.isEmpty then [] else [current.reverse]
  | c :: rest =>
    if c == '\n' then (dropReturn current).reverse :: linesFrom [] rest
    else linesFrom (c :: current) rest

def lines (cs : List Char) : List (List Char) :=
  linesFrom [] cs

def numberedLines (cs : List Char) : List (List Char × Nat) :=
  (lines cs).zipIdx 1

theorem linesFrom_append (current a b : List Char) :
    linesFrom current (a ++ '\n' :: b) = linesFrom current (a ++ ['\n']) ++ lines b := by
  induction a generalizing current with
  | nil => simp [linesFrom, lines]
  | cons c a ih =>
    simp only [List.cons_append, linesFrom]
    split <;> simp [ih]

end Granularity.Text
