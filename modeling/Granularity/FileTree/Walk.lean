import Granularity.FileTree.Basic
import Granularity.Failure

/-!
Walking a file tree: all files below a root, with links followed, a directory's content right behind
it, names in increasing order. A link back to a directory that is open on the way down is reported and
not followed.
-/

namespace Granularity

namespace FileTree

structure OpenDirectory where
  place : Place
  path : Path

inductive Visit where
  | file (path : Path)
  | failed (failure : Failure)
  deriving DecidableEq

def faultVisit (path : Path) (fault : Fault) : Visit :=
  .failed ⟨path, "IO error for operation on " ++ path.text ++ ": " ++ fault.message⟩

def loopVisit (path ancestor : Path) : Visit :=
  .failed ⟨path, "File system loop found: " ++ path.text ++ " points to an ancestor " ++ ancestor.text⟩

def directories (t : FileTree) : List Place :=
  [] :: (t.entries.filter fun e => e.2 == .directory).map Prod.fst

def isOpen (opened : List OpenDirectory) (place : Place) : Bool :=
  opened.any (·.place == place)

def unopened (t : FileTree) (opened : List OpenDirectory) : Nat :=
  t.directories.countP (!isOpen opened ·)

def height (t : FileTree) : Nat :=
  (t.directories.map List.length).foldl max 0

theorem le_foldl_max (l : List Nat) (m x : Nat) (h : x ≤ m ∨ x ∈ l) : x ≤ l.foldl max m := by
  induction l generalizing m with
  | nil => simpa using h
  | cons y l ih =>
    apply ih
    rcases h with h | h
    · exact Or.inl (by omega)
    · rcases List.mem_cons.1 h with rfl | h
      · exact Or.inl (by omega)
      · exact Or.inr h

theorem mem_directories {t : FileTree} {place : Place} (h : t.entryAt? place = some .directory) :
    place ∈ t.directories := by
  unfold entryAt? at h
  split at h
  · simp_all [directories]
  · have hm : (place, Entry.directory) ∈ t.entries := by
      generalize t.entries = l at h
      induction l with
      | nil => simp at h
      | cons e l ih =>
        obtain ⟨k, v⟩ := e
        rw [List.lookup_cons] at h
        split at h
        · next hk => simp_all
        · exact List.mem_cons_of_mem _ (ih h)
    simp only [directories, List.mem_cons, List.mem_map, List.mem_filter]
    exact Or.inr ⟨_, ⟨hm, by simp⟩, rfl⟩

theorem length_le_height {t : FileTree} {place : Place} (h : t.entryAt? place = some .directory) :
    place.length ≤ t.height :=
  le_foldl_max _ _ _ (Or.inr (List.mem_map_of_mem (mem_directories h)))

theorem unopened_cons_le (t : FileTree) (opened : List OpenDirectory) (d : OpenDirectory) :
    t.unopened (d :: opened) ≤ t.unopened opened := by
  apply List.countP_mono_left
  intro x _ hx
  simp_all [isOpen]

theorem unopened_cons_lt {t : FileTree} {opened : List OpenDirectory} {d : OpenDirectory}
    (hd : d.place ∈ t.directories) (ho : isOpen opened d.place = false) :
    t.unopened (d :: opened) < t.unopened opened := by
  unfold unopened
  generalize t.directories = l at hd
  obtain ⟨l₁, l₂, rfl⟩ := List.append_of_mem hd
  have hle (l : List Place) : l.countP (!isOpen (d :: opened) ·) ≤ l.countP (!isOpen opened ·) := by
    apply List.countP_mono_left
    intro x _ hx
    simp_all [isOpen]
  have h₁ := hle l₁
  have h₂ := hle l₂
  have hnew : isOpen (d :: opened) d.place = true := by simp [isOpen]
  simp only [List.countP_append, List.countP_cons, ho, hnew]
  simp
  omega

/-- The visits below an open directory, `opened` being it and those above it. A walk goes deeper only
into a directory below in the tree, or through a link into a directory that is not open yet. -/
def visits (t : FileTree) (opened : List OpenDirectory) (path : Path) (dir : Place) : List Visit :=
  (t.children dir).flatMap fun name =>
    let childPath := path.join ⟨name⟩
    let here := dir ++ [name]
    match _h : t.entryAt? here with
    | none => []
    | some (.file _) => [.file childPath]
    | some .directory => t.visits (⟨here, childPath⟩ :: opened) childPath here
    | some (.link _) =>
      match t.locate true childPath with
      | .error fault => [faultVisit childPath fault]
      | .ok target =>
        match _ht : t.entryAt? target with
        | some .directory =>
          match _ho : opened.find? (·.place == target) with
          | some ancestor => [loopVisit childPath ancestor.path]
          | none => t.visits (⟨target, childPath⟩ :: opened) childPath target
        | _ => [.file childPath]
termination_by (t.unopened opened, t.height - dir.length)
decreasing_by
  · have hle := t.unopened_cons_le opened ⟨here, childPath⟩
    have hlen := length_le_height _h
    simp only [here, List.length_append, List.length_singleton] at hlen
    rcases Nat.lt_or_eq_of_le hle with hlt | heq
    · exact Prod.Lex.left _ _ hlt
    · rw [heq]
      apply Prod.Lex.right
      simp only [List.length_append, List.length_singleton]
      omega
  · apply Prod.Lex.left
    exact unopened_cons_lt (mem_directories _ht) (by simpa [isOpen] using _ho)

def walkFrom (t : FileTree) (root : Path) : List Visit :=
  match t.locate false root with
  | .error fault => [faultVisit root fault]
  | .ok _ =>
    match t.locate true root with
    | .error fault => [faultVisit root fault]
    | .ok place =>
      if t.isDirectoryAt place then t.visits [⟨place, root⟩] root place else [.file root]

def Visit.file? : Visit → Option Path
  | .file path => some path
  | .failed _ => none

def Visit.failure? : Visit → Option Failure
  | .file _ => none
  | .failed failure => some failure

def asciiLower (s : String) : List Char :=
  s.toList.map Char.toLower

def hasExtension (extensions : List String) (path : Path) : Bool :=
  match path.fileName?.bind fileExtension? with
  | some ext => extensions.any fun wanted => asciiLower wanted == asciiLower ext
  | none => false

structure Discovery where
  files : List Path
  failures : List Failure
  deriving DecidableEq

def walk (t : FileTree) (root : Path) (extensions : List String) : Discovery :=
  let visits := t.walkFrom root
  { files := (visits.filterMap Visit.file?).filter (hasExtension extensions)
    failures := visits.filterMap Visit.failure? }

end FileTree

end Granularity
