import Granularity.FileTree.Basic

/-!
Changing a file tree. An operation that fails may have changed the tree already, so its result is the
tree together with the fault, if there was one.
-/

namespace Granularity

namespace FileTree

structure Change where
  tree : FileTree
  fault? : Option Fault

def put (t : FileTree) (place : Place) (e : Entry) : FileTree :=
  if (t.entries.lookup place).isSome then
    { t with entries := t.entries.map fun old => if old.1 = place then (place, e) else old }
  else { t with entries := t.entries ++ [(place, e)] }

/-- The segments of a path without the empty ones at its end: the ones before the last, the last, and
whether a slash stands behind it. -/
def lastSegment? (path : Path) : Option (List (List Char) × List Char × Bool) :=
  match path.segments.reverse.dropWhile List.isEmpty with
  | [] => none
  | last :: before => some (before.reverse, last, path.segments.getLast? == some [])

def holder (t : FileTree) (dir : Place) (path : Path) : Except Fault (Place × Option String × Bool) :=
  match pathFault? path with
  | some fault => .error fault
  | none =>
    match lastSegment? path with
    | none => .ok ([], none, false)
    | some (before, last, slash) =>
      match t.locateFrom true maxLinks (start path dir) (before ++ [[]]) with
      | .error fault => .error fault
      | .ok place =>
        if last = ['.'] ∨ last = ['.', '.'] then .ok (place, none, slash)
        else .ok (place, some (String.ofList last), slash)

/-- The place of a file to be written, which need not be there yet. The way to it is that of reading, with
the same links; only the last name may be missing, and it must not have a slash behind it. -/
def placeToWrite (t : FileTree) (links : Nat) (dir : Place) (segments : List (List Char)) : Except Fault Place :=
  match segments with
  | [] => .error .isDirectory
  | s :: rest =>
    if s = [] ∨ s = ['.'] then t.placeToWrite links dir rest
    else if s = ['.', '.'] then t.placeToWrite links dir.dropLast rest
    else if rest ≠ [] ∧ rest.all List.isEmpty then .error .isDirectory
    else
      let here := dir ++ [String.ofList s]
      match t.entryAt? here with
      | none => if rest.isEmpty then .ok here else .error .missing
      | some .directory => t.placeToWrite links here rest
      | some (.file _) => if rest.isEmpty then .ok here else .error .notDirectory
      | some (.link target) =>
        match links with
        | 0 => .error .tooManyLinks
        | links + 1 => t.placeToWrite links (start target dir) (target.segments ++ rest)
termination_by (links, segments.length)

def writeBytes (t : FileTree) (path : Path) (bytes : ByteArray) : Change :=
  match pathFault? path with
  | some fault => ⟨t, some fault⟩
  | none =>
    match t.placeToWrite maxLinks (start path t.workingDirectory) path.segments with
    | .ok place => ⟨t.put place (.file bytes), none⟩
    | .error fault => ⟨t, some fault⟩

def makeEntry (t : FileTree) (path : Path) (e : Entry) : Change :=
  match t.holder t.workingDirectory path with
  | .error fault => ⟨t, some fault⟩
  | .ok (_, none, _) => ⟨t, some .alreadyExists⟩
  | .ok (place, some name, _) =>
    match t.entryAt? (place ++ [name]) with
    | some _ => ⟨t, some .alreadyExists⟩
    | none => ⟨t.put (place ++ [name]) e, none⟩

def makeLink (t : FileTree) (path target : Path) : Change :=
  match pathFault? target with
  | some fault => ⟨t, some fault⟩
  | none => t.makeEntry path (.link target)

/-- Makes the first of the directories, after the ones behind it in the list, its parents, where they
are missing. -/
def makeDirectoryChain (t : FileTree) : List Path → Change
  | [] => ⟨t, some .missing⟩
  | path :: parents =>
    if path.text.isEmpty then ⟨t, none⟩
    else
      match (t.makeEntry path .directory).fault? with
      | none => t.makeEntry path .directory
      | some .missing =>
        let made := t.makeDirectoryChain parents
        match made.fault? with
        | some fault => ⟨made.tree, some fault⟩
        | none =>
          let last := made.tree.makeEntry path .directory
          if last.fault?.isSome && made.tree.isDirectory path then ⟨made.tree, none⟩ else last
      | some fault => if t.isDirectory path then ⟨t, none⟩ else ⟨t, some fault⟩

def makeDirectories (t : FileTree) (path : Path) : Change :=
  t.makeDirectoryChain (path.ancestors (path.components.length + 1))

def makeParents (t : FileTree) (path : Path) : Change :=
  match path.parent? with
  | none => ⟨t, none⟩
  | some parent =>
    if parent.text.isEmpty || t.pathExists parent then ⟨t, none⟩ else t.makeDirectories parent

def writeFile (t : FileTree) (path : Path) (bytes : ByteArray) : Change :=
  let made := t.makeParents path
  match made.fault? with
  | some _ => made
  | none => made.tree.writeBytes path bytes

def remove (t : FileTree) (path : Path) : Change :=
  match t.locate false path with
  | .error fault => ⟨t, some fault⟩
  | .ok place =>
    if place.isEmpty then ⟨t, some .isDirectory⟩
    else ⟨{ t with entries := t.entries.filter fun e => !place.isPrefixOf e.1 }, none⟩

end FileTree

end Granularity
