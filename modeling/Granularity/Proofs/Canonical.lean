import Granularity.Proofs.ByteOrder
import Granularity.Proofs.Links

/-!
What a walk finds where there are no links. In a directory with no links below it, it finds exactly the files with a
wanted extension, each once, by rising components, so nothing but the content of the tree decides about the result.
-/

namespace Granularity

open Text

/-- The text behind the last dot of a name, in front of which there is something. -/
def IsExtension (name ext : String) : Prop :=
  '.' ∉ ext.toList ∧ ∃ stem, stem ≠ [] ∧ name.toList = stem ++ '.' :: ext.toList

theorem fileExtension?_of_append {name : String} {stem ext : List Char} (hext : '.' ∉ ext)
    (h : name.toList = stem ++ '.' :: ext) :
    fileExtension? name = if stem = [] then none else some (String.ofList ext) := by
  have hsplit : (splitAt '.' name.toList).reverse = ext :: (splitAt '.' stem).reverse := by
    rw [h, splitAt_append, splitAt_of_notMem hext, List.reverse_append]
    rfl
  have hstem : (splitAt '.' stem).reverse = [[]] ↔ stem = [] := by
    constructor
    · intro hparts
      rw [← joinWith_splitAt '.' stem, List.reverse_eq_iff.1 hparts]
      rfl
    · rintro rfl
      rfl
  rw [fileExtension?, hsplit]
  cases hparts : (splitAt '.' stem).reverse with
  | nil => exact absurd (List.reverse_eq_nil_iff.1 hparts) (splitAt_ne_nil '.' stem)
  | cons part parts =>
    rw [hparts] at hstem
    simp only [hstem]

theorem exists_last_dot {cs : List Char} (h : '.' ∈ cs) : ∃ stem ext, cs = stem ++ '.' :: ext ∧ '.' ∉ ext := by
  obtain ⟨a, b, hab, ha⟩ := List.eq_append_cons_of_mem (List.mem_reverse.2 h)
  refine ⟨b.reverse, a.reverse, ?_, by simpa using ha⟩
  rw [← List.reverse_reverse cs, hab]
  simp

theorem fileExtension?_eq_some {name ext : String} : fileExtension? name = some ext ↔ IsExtension name ext := by
  constructor
  · intro h
    by_cases hdot : '.' ∈ name.toList
    · obtain ⟨stem, last, hname, hlast⟩ := exists_last_dot hdot
      rw [fileExtension?_of_append hlast hname] at h
      split at h
      · cases h
      · next hstem =>
        cases h
        rw [IsExtension, String.toList_ofList]
        exact ⟨hlast, stem, hstem, hname⟩
    · rw [fileExtension?, splitAt_of_notMem hdot] at h
      cases h
  · rintro ⟨hext, stem, hstem, hname⟩
    rw [fileExtension?_of_append hext hname, if_neg hstem, String.ofList_toList]

def Component.text : Component → String
  | .root => "/"
  | .here => "."
  | .up => ".."
  | .name s => s

/-- The bytes of the components, by which paths are compared. -/
def Path.byteComponents (p : Path) : List (List UInt8) := p.components.map fun c => bytes c.text

/-- The path that goes down from another by these names. -/
def Path.descend (path : Path) (names : List String) : Path := names.foldl (fun p name => p.join ⟨name⟩) path

namespace FileTree

variable {t : FileTree} {dir : Place} {path : Path} {names : List String}

theorem Precedes.byteComponents_lt {p q : Path} (h : Precedes p.components q.components) :
    p.byteComponents < q.byteComponents := by
  obtain ⟨front, a, b, u, v, hp, hq, hlt⟩ := h
  rw [Path.byteComponents, Path.byteComponents, hp, hq, List.map_append, List.map_append]
  apply List.append_left_lt
  rw [List.map_cons, List.map_cons, List.cons_lt_cons_iff]
  exact Or.inl (bytes_lt_bytes hlt)

theorem components_descend (hp : path.text ≠ "") (hn : ∀ name ∈ names, IsName name) :
    (path.descend names).components = path.components ++ names.map .name := by
  induction names generalizing path with
  | nil => simp [Path.descend]
  | cons name names ih =>
    have hname := hn name List.mem_cons_self
    have hrest := ih (hname.join_ne_empty hp) fun n h => hn n (List.mem_cons_of_mem _ h)
    rw [hname.components_join hp] at hrest
    simpa [Path.descend] using hrest

theorem hasExtension_iff {name : String} (hn : IsName name) {extensions : List String} :
    hasExtension extensions ⟨name⟩ = true ↔
      ∃ ext, IsExtension name ext ∧ ∃ wanted ∈ extensions, asciiLower wanted = asciiLower ext := by
  have hfile : (Path.mk name).fileName? = some name := by rw [Path.fileName?, hn.components_eq]; rfl
  rw [hasExtension, hfile, Option.bind_some]
  constructor
  · intro h
    split at h
    · next ext hext =>
      obtain ⟨wanted, hwanted, heq⟩ := List.any_eq_true.1 h
      exact ⟨ext, fileExtension?_eq_some.1 hext, wanted, hwanted, by simpa using heq⟩
    · cases h
  · rintro ⟨ext, hext, wanted, hwanted, heq⟩
    rw [fileExtension?_eq_some.2 hext]
    exact List.any_eq_true.2 ⟨wanted, hwanted, by simpa using heq⟩

theorem hasExtension_descend (hw : t.WellFormed) {root : Path} (hroot : root.text ≠ "") {front : List String}
    {name : String} {e : Entry} (he : t.entryAt? (dir ++ (front ++ [name])) = some e) {extensions : List String} :
    hasExtension extensions (root.descend (front ++ [name])) = true ↔
      ∃ ext, IsExtension name ext ∧ ∃ wanted ∈ extensions, asciiLower wanted = asciiLower ext := by
  have hnames := hw.named _ (mem_entries_of_some (by simp) he)
  have hname : IsName name := hnames name (by simp)
  have hcomponents := components_descend hroot fun n hn => hnames n (List.mem_append_right dir hn)
  rw [hname.hasExtension_names hcomponents (by simp), hasExtension_iff hname]

def NoLinkBelow (t : FileTree) (dir : Place) : Prop :=
  ∀ names target, t.entryAt? (dir ++ names) ≠ some (.link target)

theorem LinkFree.noLinkBelow (hl : t.LinkFree) (dir : Place) : t.NoLinkBelow dir :=
  fun _ => hl.entryAt?_ne_link _

theorem NoLinkBelow.child (h : t.NoLinkBelow dir) (name : String) : t.NoLinkBelow (dir ++ [name]) := by
  intro names target
  simpa using h (name :: names) target

theorem NoLinkBelow.mem_visits (hw : t.WellFormed) (hr : t.Rooted) (opened : List OpenDirectory) (path : Path)
    (dir : Place) (hl : t.NoLinkBelow dir) (v : Visit) :
    v ∈ t.visits opened path dir ↔ ∃ names bytes, names ≠ [] ∧ t.entryAt? (dir ++ names) = some (.file bytes) ∧
      v = .file (path.descend names) := by
  induction opened, path, dir using visits.induct t with
  | case1 opened path dir ih _ =>
    rw [visits_of_no_link fun name => hl [name], List.mem_flatMap]
    constructor
    · rintro ⟨name, hname, hv⟩
      obtain ⟨-, e, he⟩ := hw.child hname
      simp only [childVisits, he] at hv
      cases e with
      | file bytes => exact ⟨[name], bytes, by simp, he, List.mem_singleton.1 hv⟩
      | directory =>
        obtain ⟨names, bytes, -, hfile, hv⟩ := (ih name he (hl.child name)).1 hv
        exact ⟨name :: names, bytes, by simp, by simpa using hfile, hv⟩
      | link target => exact absurd he (hl [name] target)
    · rintro ⟨names, bytes, hne, hfile, rfl⟩
      cases names with
      | nil => exact absurd rfl hne
      | cons name names =>
        cases names with
        | nil => exact ⟨name, mem_children_of_entry hfile, by simp [childVisits, hfile, Path.descend]⟩
        | cons next names =>
          rw [List.append_cons] at hfile
          have hdir := hr.directory_of_append (by simp) hfile
          refine ⟨name, mem_children_of_entry hdir, ?_⟩
          simp only [childVisits, hdir]
          exact (ih name hdir (hl.child name)).2 ⟨next :: names, bytes, by simp, hfile, rfl⟩

/-- The path goes down to a file with one of the extensions, in capital or small letters. -/
def FoundBelow (t : FileTree) (root : Path) (dir : Place) (extensions : List String) (p : Path) : Prop :=
  ∃ names name bytes, p = root.descend (names ++ [name]) ∧ t.entryAt? (dir ++ (names ++ [name])) = some (.file bytes) ∧
    ∃ ext, IsExtension name ext ∧ ∃ wanted ∈ extensions, asciiLower wanted = asciiLower ext

/-- All that a walk has to find, in the order of the components. -/
structure Canonical (t : FileTree) (root : Path) (dir : Place) (extensions : List String) (d : Discovery) : Prop where
  failures : d.failures = []
  files : ∀ p, p ∈ d.files ↔ t.FoundBelow root dir extensions p
  rising : d.files.Pairwise fun p q => p.byteComponents < q.byteComponents
  once : d.files.Nodup

variable {root : Path} {extensions : List String}

theorem Canonical.unique {d d' : Discovery} (h : t.Canonical root dir extensions d)
    (h' : t.Canonical root dir extensions d') : d = d' := by
  have hfiles : d.files = d'.files := by
    apply List.Perm.eq_of_pairwise _ h.rising h'.rising
    · exact (List.perm_ext_iff_of_nodup h.once h'.once).2 fun p => (h.files p).trans (h'.files p).symm
    · intro p q _ _ hpq hqp
      exact absurd hpq (List.lt_asymm hqp)
  obtain ⟨files, failures⟩ := d
  obtain ⟨files', failures'⟩ := d'
  rw [Discovery.mk.injEq]
  exact ⟨hfiles, h.failures.trans h'.failures.symm⟩

theorem NoLinkBelow.canonical_walk (hl : t.NoLinkBelow dir) (hw : t.WellFormed) (hr : t.Rooted)
    (hroot : t.locate true root = .ok dir) (hdir : t.entryAt? dir = some .directory) (extensions : List String) :
    t.Canonical root dir extensions (t.walk root extensions) := by
  have hne := ne_empty_of_locate hroot
  have hwalk := walkFrom_directory hroot hdir
  have hmem := mem_visits hw hr [⟨dir, root⟩] root dir hl
  have hspread := hw.spread_walk root extensions
  refine ⟨?_, ?_, hspread.rising.imp Precedes.byteComponents_lt, hspread.distinct.imp ?_⟩
  · rw [walk, hwalk, List.filterMap_eq_nil_iff]
    intro v hv
    obtain ⟨names, bytes, -, -, rfl⟩ := (hmem v).1 hv
    rfl
  · intro p
    simp only [walk, hwalk, List.mem_filter, List.mem_filterMap]
    constructor
    · rintro ⟨⟨v, hv, hfile⟩, hext⟩
      obtain ⟨names, bytes, hnames, hentry, rfl⟩ := (hmem v).1 hv
      obtain ⟨front, name, rfl⟩ : ∃ front name, names = front ++ [name] :=
        ⟨_, _, (List.dropLast_append_getLast hnames).symm⟩
      cases hfile
      exact ⟨front, name, bytes, rfl, hentry, (hasExtension_descend hw hne hentry).1 hext⟩
    · rintro ⟨front, name, bytes, rfl, hentry, hext⟩
      refine ⟨⟨_, (hmem _).2 ⟨front ++ [name], bytes, by simp, hentry, rfl⟩, rfl⟩, ?_⟩
      exact (hasExtension_descend hw hne hentry).2 hext
  · rintro p q hpq rfl
    exact hpq rfl

theorem WellFormed.perm (hw : t.WellFormed) {t' : FileTree} (h : t'.entries.Perm t.entries) : t'.WellFormed :=
  ⟨(h.map Prod.fst).nodup_iff.2 hw.distinct, fun e he => hw.named e (h.mem_iff.1 he)⟩

theorem WellFormed.entryAt?_perm (hw : t.WellFormed) {t' : FileTree} (h : t'.entries.Perm t.entries) (place : Place) :
    t'.entryAt? place = t.entryAt? place := by
  by_cases hne : place = []
  · rw [hne]
    rfl
  · cases he : t.entryAt? place with
    | some e => exact (hw.perm h).entryAt?_of_mem hne (h.mem_iff.2 (mem_entries_of_some hne he))
    | none =>
      cases he' : t'.entryAt? place with
      | none => rfl
      | some e =>
        rw [hw.entryAt?_of_mem hne (h.mem_iff.1 (mem_entries_of_some hne he'))] at he
        cases he

theorem walk_canonical (t : FileTree) (hw : t.WellFormed) (hr : t.Rooted) (root : Path) (dir : Place)
    (hroot : t.locate true root = .ok dir) (hdir : t.entryAt? dir = some .directory) (hl : t.NoLinkBelow dir)
    (extensions : List String) :
    t.Canonical root dir extensions (t.walk root extensions) ∧
      ∀ t' : FileTree, t'.entries.Perm t.entries → t'.workingDirectory = t.workingDirectory →
        t'.walk root extensions = t.walk root extensions := by
  have hcanonical := hl.canonical_walk hw hr hroot hdir extensions
  refine ⟨hcanonical, fun t' hperm hworking => ?_⟩
  have hentry := hw.entryAt?_perm hperm
  have hroot' : t'.locate true root = .ok dir := (locate_agree hworking fun place _ => hentry place).trans hroot
  have hl' : t'.NoLinkBelow dir := fun names target => by
    rw [hentry]
    exact hl names target
  have hr' : t'.Rooted := fun e he => by
    rw [hentry]
    exact hr e (hperm.mem_iff.1 he)
  have hcanonical' := hl'.canonical_walk (hw.perm hperm) hr' hroot' (by rw [hentry, hdir]) extensions
  have hfound (p : Path) : t'.FoundBelow root dir extensions p ↔ t.FoundBelow root dir extensions p := by
    simp only [FoundBelow, hentry]
  apply Canonical.unique ⟨hcanonical'.failures, fun p => (hcanonical'.files p).trans (hfound p), hcanonical'.rising,
    hcanonical'.once⟩ hcanonical

/-- As text the path `repo/a-b` comes before `repo/a/Z.JAVA`. -/
def mixedTree : FileTree where
  entries := [(["repo", "a.java"], .file .empty), (["repo", "a-b"], .directory), (["repo"], .directory),
    (["repo", "a-b", ".java"], .file .empty), (["repo", "a-b", "X.java"], .file .empty),
    (["repo", "a", "Z.JAVA"], .file .empty), (["repo", "a"], .directory), (["repo", "a", "java"], .file .empty)]
  workingDirectory := []

theorem mixedTree_root : mixedTree.LeadsTo ⟨"repo"⟩ ["repo"] := by
  have hname : IsName "repo" := by decide
  exact hname.leadsTo rfl

theorem mixedTree_linkFree : mixedTree.LinkFree := by
  simp [LinkFree, mixedTree]

theorem walk_canonical_mixedTree :
    (mixedTree.WellFormed ∧ mixedTree.Rooted ∧ mixedTree.locate true ⟨"repo"⟩ = .ok ["repo"] ∧
      mixedTree.entryAt? ["repo"] = some .directory ∧ mixedTree.NoLinkBelow ["repo"]) ∧
    mixedTree.Canonical ⟨"repo"⟩ ["repo"] ["java"] (mixedTree.walk ⟨"repo"⟩ ["java"]) ∧
      FileTree.walk ⟨mixedTree.entries.reverse, []⟩ ⟨"repo"⟩ ["java"] = mixedTree.walk ⟨"repo"⟩ ["java"] := by
  have hformed : mixedTree.WellFormed := by decide
  have hrooted : mixedTree.Rooted := by decide
  have hroot := mixedTree_root.locate_eq true
  have hfree := mixedTree_linkFree.noLinkBelow ["repo"]
  obtain ⟨hcanonical, hperm⟩ := walk_canonical mixedTree hformed hrooted _ _ hroot rfl hfree ["java"]
  exact ⟨⟨hformed, hrooted, hroot, rfl, hfree⟩, hcanonical, hperm _ (List.reverse_perm _) rfl⟩

end FileTree

end Granularity
