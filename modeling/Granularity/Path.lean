import Granularity.Text.Infix

/-!
Paths are kept as they are spelled. What a path means is its list of components: repeated slashes, a
trailing slash and an inner `.` do not count, a leading `.` does.
-/

namespace Granularity

structure Path where
  text : String
  deriving DecidableEq, Inhabited

inductive Component where
  | root
  | here
  | up
  | name (s : String)
  deriving DecidableEq

/-- The component that the text between two slashes stands for, if any; `first` says that it opens a
relative path. -/
def Component.ofSegment? (first : Bool) (s : List Char) : Option Component :=
  if s = [] then none
  else if s = ['.'] then (if first then some .here else none)
  else if s = ['.', '.'] then some .up
  else some (.name (String.ofList s))

namespace Path

def empty : Path := ⟨""⟩

def segments (p : Path) : List (List Char) :=
  Text.splitAt '/' p.text.toList

def isAbsolute (p : Path) : Bool :=
  p.text.toList.head? == some '/'

/-- The components, each with the number of the segment it stands in. -/
def marks (p : Path) : List (Component × Nat) :=
  if p.isAbsolute then
    (.root, 0) :: p.segments.zipIdx.filterMap fun s => (Component.ofSegment? false s.1).map (·, s.2)
  else
    p.segments.zipIdx.filterMap fun s => (Component.ofSegment? (s.2 == 0) s.1).map (·, s.2)

def components (p : Path) : List Component :=
  p.marks.map Prod.fst

def slice (p : Path) (i j : Nat) : Path :=
  ⟨String.ofList (Text.joinWith ['/'] ((p.segments.take (j + 1)).drop i))⟩

def through (p : Path) (j : Nat) : Path :=
  if p.isAbsolute && j == 0 then ⟨"/"⟩ else p.slice 0 j

def parent? (p : Path) : Option Path :=
  match p.marks.reverse with
  | [] => none
  | (.root, _) :: _ => none
  | [_] => some empty
  | _ :: (_, j) :: _ => some (p.through j)

def ancestors (p : Path) : Nat → List Path
  | 0 => []
  | max + 1 =>
    p :: match p.parent? with
      | some q => q.ancestors max
      | none => []

def join (p q : Path) : Path :=
  if q.isAbsolute then q
  else if p.text.isEmpty || p.text.toList.getLast? == some '/' then ⟨p.text ++ q.text⟩
  else ⟨p.text ++ "/" ++ q.text⟩

def stripPrefix? (p base : Path) : Option Path :=
  if base.components.isPrefixOf p.components then
    match p.marks.drop base.components.length, p.marks.getLast? with
    | (_, i) :: _, some (_, j) => some (if base.components.isEmpty then p.through j else p.slice i j)
    | _, _ => some empty
  else none

def relativeTo (p root : Path) : Path :=
  (p.stripPrefix? root).getD p

def fileName? (p : Path) : Option String :=
  match p.components.getLast? with
  | some (.name s) => some s
  | _ => none

end Path

def fileExtension? (name : String) : Option String :=
  match (Text.splitAt '.' name.toList).reverse with
  | [] | [_] => none
  | ext :: before =>
    if before = [[]] then none else some (String.ofList ext)

end Granularity
