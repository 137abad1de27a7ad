import Granularity.Path

/-!
File trees: what lies at which place, with symbolic links. A place is the list of names from the root
directory down to it; a path is text, and finding its place follows the links on the way.
-/

namespace Granularity

abbrev Place := List String

/-- What lies at a place. A link leads to the path that it holds, seen from its own directory. -/
inductive Entry where
  | directory
  | file (bytes : ByteArray)
  | link (target : Path)

instance : DecidableEq Entry
  | .directory, .directory => isTrue rfl
  | .file a, .file b =>
    match ByteArray.instDecidableEq a b with
    | isTrue h => isTrue (congrArg _ h)
    | isFalse h => isFalse fun e => h (Entry.file.inj e)
  | .link p, .link q =>
    match decEq p q with
    | isTrue h => isTrue (congrArg _ h)
    | isFalse h => isFalse fun e => h (Entry.link.inj e)
  | .directory, .file _ | .directory, .link _ | .file _, .directory | .file _, .link _ | .link _, .directory
  | .link _, .file _ => isFalse nofun

inductive Fault where
  | missing
  | alreadyExists
  | notDirectory
  | isDirectory
  | tooManyLinks
  | notText
  | badName
  deriving DecidableEq

def Fault.message : Fault → String
  | .missing => "No such file or directory (os error 2)"
  | .alreadyExists => "File exists (os error 17)"
  | .notDirectory => "Not a directory (os error 20)"
  | .isDirectory => "Is a directory (os error 21)"
  | .tooManyLinks => "Too many levels of symbolic links (os error 40)"
  | .notText => "stream did not contain valid UTF-8"
  | .badName => "file name contained an unexpected NUL byte"

structure FileTree where
  entries : List (Place × Entry)
  workingDirectory : Place

namespace FileTree

def entryAt? (t : FileTree) (place : Place) : Option Entry :=
  if place.isEmpty then some .directory else t.entries.lookup place

def isDirectoryAt (t : FileTree) (place : Place) : Bool :=
  t.entryAt? place == some .directory

def maxLinks : Nat := 40

def start (path : Path) (dir : Place) : Place :=
  if path.isAbsolute then [] else dir

/-- The place that the segments lead to from a directory, following at most `links` links. A link in
the last segment is followed only if `followLast` says so, or if a slash stands behind it. -/
def locateFrom (t : FileTree) (followLast : Bool) (links : Nat) (dir : Place) (segments : List (List Char)) :
    Except Fault Place :=
  match segments with
  | [] => .ok dir
  | s :: rest =>
    if s = [] ∨ s = ['.'] then t.locateFrom followLast links dir rest
    else if s = ['.', '.'] then t.locateFrom followLast links dir.dropLast rest
    else
      let here := dir ++ [String.ofList s]
      match t.entryAt? here with
      | none => .error .missing
      | some .directory => t.locateFrom followLast links here rest
      | some (.file _) => if rest.isEmpty then .ok here else .error .notDirectory
      | some (.link target) =>
        if rest.isEmpty && !followLast then .ok here
        else
          match links with
          | 0 => .error .tooManyLinks
          | links + 1 => t.locateFrom followLast links (start target dir) (target.segments ++ rest)
termination_by (links, segments.length)

/-- A path that no file system takes: it is empty or holds a NUL. -/
def pathFault? (path : Path) : Option Fault :=
  if path.text.isEmpty then some .missing
  else if path.text.toList.contains '\x00' then some .badName
  else none

def locate (t : FileTree) (followLast : Bool) (path : Path) : Except Fault Place :=
  match pathFault? path with
  | some fault => .error fault
  | none => t.locateFrom followLast maxLinks (start path t.workingDirectory) path.segments

def locate? (t : FileTree) (path : Path) : Option Place :=
  (t.locate true path).toOption

def pathExists (t : FileTree) (path : Path) : Bool :=
  (t.locate? path).isSome

def isDirectory (t : FileTree) (path : Path) : Bool :=
  match t.locate? path with
  | some place => t.isDirectoryAt place
  | none => false

def absolutePath (place : Place) : Path :=
  ⟨"/" ++ "/".intercalate place⟩

def canonical? (t : FileTree) (path : Path) : Option Path :=
  (t.locate? path).map absolutePath

def readText (t : FileTree) (path : Path) : Except Fault String :=
  match t.locate true path with
  | .error fault => .error fault
  | .ok place =>
    match t.entryAt? place with
    | some (.file bytes) =>
      match String.fromUTF8? bytes with
      | some text => .ok text
      | none => .error .notText
    | some .directory => .error .isDirectory
    | _ => .error .missing

def children (t : FileTree) (dir : Place) : List String :=
  (t.entries.filterMap fun e => if e.1.dropLast = dir then e.1.getLast? else none).mergeSort

end FileTree

end Granularity
