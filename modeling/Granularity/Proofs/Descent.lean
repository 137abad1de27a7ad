import Granularity.Proofs.Links

/-!
A walk with links, step by step. The branch is what is open at a time; a step visits one entry or closes a directory.
Every walk ends, because a link opens only what is not open, and a branch without links is no longer than the tree is
high. What cannot be followed is one failure, and nothing below it is visited.
-/

namespace Granularity

namespace FileTree

variable {t : FileTree}

/-- An open directory, and the names in it that are still to be visited. -/
structure Frame where
  directory : OpenDirectory
  names : List String

abbrev Branch := List Frame

def Branch.opened (b : Branch) : List OpenDirectory := b.map Frame.directory

@[simp]
theorem Branch.opened_cons (frame : Frame) (rest : Branch) :
    Branch.opened (frame :: rest) = frame.directory :: rest.opened := rfl

def enter (t : FileTree) (d : OpenDirectory) : Frame := ⟨d, t.children d.place⟩

/-- What a walk makes of an entry of an open directory: the visits, and the directory that it opens. -/
inductive Turn (t : FileTree) (opened : List OpenDirectory) (d : OpenDirectory) (name : String) :
    List Visit → Branch → Prop where
  | absent (he : t.entryAt? (d.place ++ [name]) = none) : Turn t opened d name [] []
  | file {bytes : ByteArray} (he : t.entryAt? (d.place ++ [name]) = some (.file bytes)) :
      Turn t opened d name [.file (d.path.join ⟨name⟩)] []
  | directory (he : t.entryAt? (d.place ++ [name]) = some .directory) :
      Turn t opened d name [] [t.enter ⟨d.place ++ [name], d.path.join ⟨name⟩⟩]
  | broken {target : Path} {fault : Fault} (he : t.entryAt? (d.place ++ [name]) = some (.link target))
      (hl : t.locate true (d.path.join ⟨name⟩) = .error fault) :
      Turn t opened d name [faultVisit (d.path.join ⟨name⟩) fault] []
  | linked {target : Path} {place : Place} (he : t.entryAt? (d.place ++ [name]) = some (.link target))
      (hl : t.locate true (d.path.join ⟨name⟩) = .ok place) (hp : t.entryAt? place ≠ some .directory) :
      Turn t opened d name [.file (d.path.join ⟨name⟩)] []
  | loop {target : Path} {place : Place} {ancestor : OpenDirectory}
      (he : t.entryAt? (d.place ++ [name]) = some (.link target))
      (hl : t.locate true (d.path.join ⟨name⟩) = .ok place) (hp : t.entryAt? place = some .directory)
      (ho : opened.find? (·.place == place) = some ancestor) :
      Turn t opened d name [loopVisit (d.path.join ⟨name⟩) ancestor.path] []
  | follow {target : Path} {place : Place} (he : t.entryAt? (d.place ++ [name]) = some (.link target))
      (hl : t.locate true (d.path.join ⟨name⟩) = .ok place) (hp : t.entryAt? place = some .directory)
      (ho : opened.find? (·.place == place) = none) :
      Turn t opened d name [] [t.enter ⟨place, d.path.join ⟨name⟩⟩]

/-- A step closes a directory in which nothing is left, or takes the next name of the innermost one. -/
inductive Step (t : FileTree) : Branch → List Visit → Branch → Prop where
  | close (d : OpenDirectory) (rest : Branch) : Step t (⟨d, []⟩ :: rest) [] rest
  | turn {d : OpenDirectory} {name : String} {rest new : Branch} {vs : List Visit} (names : List String)
      (h : t.Turn (d :: rest.opened) d name vs new) :
      Step t (⟨d, name :: names⟩ :: rest) vs (new ++ ⟨d, names⟩ :: rest)

inductive Steps (t : FileTree) : Branch → List Visit → Branch → Prop where
  | done (b : Branch) : Steps t b [] b
  | step {b b' b'' : Branch} {vs ws : List Visit} : t.Step b vs b' → t.Steps b' ws b'' → Steps t b (vs ++ ws) b''

theorem Steps.trans {b b' b'' : Branch} {vs ws : List Visit} (h : t.Steps b vs b') (h' : t.Steps b' ws b'') :
    t.Steps b (vs ++ ws) b'' := by
  induction h with
  | done b => exact h'
  | step hstep _ ih =>
    rw [List.append_assoc]
    exact .step hstep (ih h')

theorem exists_turn (t : FileTree) (opened : List OpenDirectory) (d : OpenDirectory) (name : String) :
    ∃ vs new, t.Turn opened d name vs new := by
  cases he : t.entryAt? (d.place ++ [name]) with
  | none => exact ⟨_, _, .absent he⟩
  | some e =>
    cases e with
    | file bytes => exact ⟨_, _, .file he⟩
    | directory => exact ⟨_, _, .directory he⟩
    | link target =>
      cases hl : t.locate true (d.path.join ⟨name⟩) with
      | error fault => exact ⟨_, _, .broken he hl⟩
      | ok place =>
        by_cases hp : t.entryAt? place = some .directory
        · cases ho : opened.find? (·.place == place) with
          | none => exact ⟨_, _, .follow he hl hp ho⟩
          | some ancestor => exact ⟨_, _, .loop he hl hp ho⟩
        · exact ⟨_, _, .linked he hl hp⟩

theorem exists_step {b : Branch} (hb : b ≠ []) : ∃ vs b', t.Step b vs b' := by
  cases b with
  | nil => exact absurd rfl hb
  | cons frame rest =>
    obtain ⟨d, names⟩ := frame
    cases names with
    | nil => exact ⟨_, _, .close d rest⟩
    | cons name names =>
      obtain ⟨vs, new, h⟩ := t.exists_turn (d :: Branch.opened rest) d name
      exact ⟨_, _, .turn names h⟩

theorem Turn.opens {opened : List OpenDirectory} {d : OpenDirectory} {name : String} {vs : List Visit} {new : Branch}
    (h : t.Turn opened d name vs new) : new = [] ∨ ∃ place, new = [t.enter ⟨place, d.path.join ⟨name⟩⟩] ∧
      t.entryAt? place = some .directory ∧ (place = d.place ++ [name] ∨ opened.find? (·.place == place) = none) := by
  cases h with
  | absent he => exact Or.inl rfl
  | file he => exact Or.inl rfl
  | directory he => exact Or.inr ⟨_, rfl, he, Or.inl rfl⟩
  | broken he hl => exact Or.inl rfl
  | linked he hl hp => exact Or.inl rfl
  | loop he hl hp ho => exact Or.inl rfl
  | follow he hl hp ho => exact Or.inr ⟨_, rfl, hp, Or.inr ho⟩

def Next (t : FileTree) (b' b : Branch) : Prop := ∃ vs, t.Step b vs b'

theorem acc_frame (opened : List OpenDirectory) (path : Path) (dir : Place) (names : List String) (rest : Branch)
    (ho : opened = ⟨dir, path⟩ :: rest.opened) (hr : Acc t.Next rest) : Acc t.Next (⟨⟨dir, path⟩, names⟩ :: rest) := by
  induction opened, path, dir using visits.induct t generalizing names rest with
  | case1 opened path dir ihdir ihlink =>
    induction names with
    | nil =>
      constructor
      rintro b ⟨vs, hstep⟩
      cases hstep
      exact hr
    | cons name names ih =>
      constructor
      rintro b ⟨vs, hstep⟩
      cases hstep with
      | turn names hturn =>
        -- the walk goes on here, or in a directory that the measure of walks puts below this one
        rcases hturn.opens with rfl | ⟨place, rfl, hplace, rfl | hnew⟩
        · exact ih
        · exact ihdir name hplace _ _ (by rw [ho]; rfl) ih
        · exact ihlink name place hplace (by rw [ho]; exact hnew) _ _ (by rw [ho]; rfl) ih

theorem wellFounded_next (t : FileTree) : WellFounded t.Next := by
  constructor
  intro b
  induction b with
  | nil =>
    constructor
    rintro b ⟨vs, hstep⟩
    cases hstep
  | cons frame rest ih => exact acc_frame _ _ _ frame.names rest rfl ih

theorem exists_steps (b : Branch) : ∃ vs, t.Steps b vs [] := by
  induction b using t.wellFounded_next.induction with
  | _ b ih =>
    by_cases hb : b = []
    · rw [hb]
      exact ⟨[], .done []⟩
    · obtain ⟨vs, b', hstep⟩ := exists_step (t := t) hb
      obtain ⟨ws, hsteps⟩ := ih b' ⟨vs, hstep⟩
      exact ⟨vs ++ ws, .step hstep hsteps⟩

def entryVisits (t : FileTree) (opened : List OpenDirectory) (d : OpenDirectory) (name : String) : List Visit :=
  match t.entryAt? (d.place ++ [name]) with
  | none => []
  | some (.file _) => [.file (d.path.join ⟨name⟩)]
  | some .directory =>
    t.visits (⟨d.place ++ [name], d.path.join ⟨name⟩⟩ :: opened) (d.path.join ⟨name⟩) (d.place ++ [name])
  | some (.link _) =>
    match t.locate true (d.path.join ⟨name⟩) with
    | .error fault => [faultVisit (d.path.join ⟨name⟩) fault]
    | .ok place =>
      if t.entryAt? place = some .directory then
        match opened.find? (·.place == place) with
        | some ancestor => [loopVisit (d.path.join ⟨name⟩) ancestor.path]
        | none => t.visits (⟨place, d.path.join ⟨name⟩⟩ :: opened) (d.path.join ⟨name⟩) place
      else [.file (d.path.join ⟨name⟩)]

theorem visits_eq_flatMap (opened : List OpenDirectory) (d : OpenDirectory) :
    t.visits opened d.path d.place = (t.children d.place).flatMap (t.entryVisits opened d) := by
  rw [visits]
  congr 1
  funext name
  simp only [entryVisits]
  split
  · next h => rw [h]
  · next h => rw [h]
  · next h => rw [h]
  · next target h =>
    rw [h]
    cases hl : t.locate true (d.path.join ⟨name⟩) with
    | error fault => rfl
    | ok place =>
      simp only
      split
      · next hp =>
        rw [if_pos hp]
        split
        · next ho => simp [ho]
        · next ho => simp [ho]
      · next hp =>
        rw [if_neg]
        intro h
        exact hp h

/-- What a walk that has come to a branch is still going to meet. -/
def pending (t : FileTree) : Branch → List Visit
  | [] => []
  | ⟨d, names⟩ :: rest => names.flatMap (t.entryVisits (d :: Branch.opened rest) d) ++ t.pending rest

theorem pending_enter (d : OpenDirectory) (rest : Branch) :
    t.pending (t.enter d :: rest) = t.visits (d :: rest.opened) d.path d.place ++ t.pending rest := by
  rw [visits_eq_flatMap]
  rfl

theorem Turn.pending_eq {d : OpenDirectory} {name : String} {vs : List Visit} {rest new : Branch}
    (h : t.Turn (d :: rest.opened) d name vs new) (names : List String) :
    t.pending (⟨d, name :: names⟩ :: rest) = vs ++ t.pending (new ++ ⟨d, names⟩ :: rest) := by
  have hsplit : t.pending (⟨d, name :: names⟩ :: rest) =
      t.entryVisits (d :: rest.opened) d name ++ t.pending (⟨d, names⟩ :: rest) := by
    simp [pending]
  rw [hsplit]
  cases h with
  | absent he => simp [entryVisits, he]
  | file he => simp [entryVisits, he]
  | directory he =>
    rw [List.singleton_append, pending_enter]
    simp [entryVisits, he]
  | broken he hl => simp [entryVisits, he, hl]
  | linked he hl hp => simp [entryVisits, he, hl, hp]
  | loop he hl hp ho => simp [entryVisits, he, hl, hp, ho]
  | follow he hl hp ho =>
    rw [List.singleton_append, pending_enter]
    simp [entryVisits, he, hl, hp, ho]

theorem Step.pending_eq {b b' : Branch} {vs : List Visit} (h : t.Step b vs b') : t.pending b = vs ++ t.pending b' := by
  cases h with
  | close d rest => simp [pending]
  | turn names hturn => exact hturn.pending_eq names

theorem Steps.pending_eq {b b' : Branch} {vs : List Visit} (h : t.Steps b vs b') :
    t.pending b = vs ++ t.pending b' := by
  induction h with
  | done b => rfl
  | step hstep _ ih => rw [hstep.pending_eq, ih, List.append_assoc]

/-- How long a branch can still get, with the directories that are not open. -/
def Short (t : FileTree) : Branch → Prop
  | [] => True
  | ⟨d, _⟩ :: rest =>
    rest.length + 1 + (t.height - d.place.length) + t.unopened (d :: Branch.opened rest) * (t.height + 1) ≤
      t.directories.length * (t.height + 1) ∧ t.Short rest

theorem Short.length_le {b : Branch} (h : t.Short b) : b.length ≤ t.directories.length * (t.height + 1) := by
  cases b with
  | nil => simp
  | cons frame rest =>
    have hframe := h.1
    rw [List.length_cons]
    omega

theorem isOpen_of_find? {opened : List OpenDirectory} {place : Place}
    (h : opened.find? (·.place == place) = none) : isOpen opened place = false := by
  simpa [isOpen] using h

theorem Turn.short {d : OpenDirectory} {name : String} {vs : List Visit} {rest new : Branch} {names : List String}
    (h : t.Turn (d :: rest.opened) d name vs new) (hb : t.Short (⟨d, name :: names⟩ :: rest)) :
    t.Short (new ++ ⟨d, names⟩ :: rest) := by
  rcases h.opens with rfl | ⟨place, rfl, hplace, hnew⟩
  · exact hb
  · rw [List.singleton_append]
    refine ⟨?_, hb⟩
    have hlength := length_le_height hplace
    have hbefore := hb.1
    simp only [List.length_cons, Branch.opened_cons]
    rcases hnew with rfl | hnew
    · -- one directory farther down
      have hle := t.unopened_cons_le (d :: rest.opened) ⟨d.place ++ [name], d.path.join ⟨name⟩⟩
      have hmul := Nat.mul_le_mul_right (t.height + 1) hle
      simp only [List.length_append, List.length_singleton] at hlength ⊢
      omega
    · -- one directory less to open
      have hlt : t.unopened (⟨place, d.path.join ⟨name⟩⟩ :: d :: rest.opened) < t.unopened (d :: rest.opened) :=
        unopened_cons_lt (mem_directories hplace) (isOpen_of_find? hnew)
      have hmul := Nat.mul_le_mul_right (t.height + 1) hlt
      rw [Nat.succ_mul] at hmul
      omega

theorem Steps.short {b b' : Branch} {vs : List Visit} (h : t.Steps b vs b') (hb : t.Short b) : t.Short b' := by
  induction h with
  | done b => exact hb
  | step hstep _ ih =>
    apply ih
    cases hstep with
    | close d rest => exact hb.2
    | turn names hturn => exact hturn.short hb

theorem short_enter {d : OpenDirectory} (hd : t.entryAt? d.place = some .directory) : t.Short [t.enter d] := by
  refine ⟨?_, trivial⟩
  have hall : t.unopened [] = t.directories.length := by simp [unopened, isOpen]
  have hlt : t.unopened [d] < t.unopened [] := unopened_cons_lt (mem_directories hd) rfl
  have hmul := Nat.mul_le_mul_right (t.height + 1) hlt
  rw [hall, Nat.succ_mul] at hmul
  simp only [Branch.opened, List.map_nil, List.length_nil]
  omega

/-- At a path and below it nothing is reported but one failure. -/
structure FailsOnce (d : Discovery) (f : Failure) : Prop where
  failures : d.failures.filter (fun g => f.path.components.isPrefixOf g.path.components) = [f]
  files : ∀ p ∈ d.files, ¬ f.path.components <+: p.components

theorem WellFormed.failsOnce (hw : t.WellFormed) {root : Path} {before after : List Visit} {f : Failure}
    (h : t.walkFrom root = before ++ .failed f :: after) (extensions : List String) :
    FailsOnce (t.walk root extensions) f := by
  have hrising := (hw.spread_walkFrom root).rising
  rw [h, List.map_append, List.map_cons, List.pairwise_append, List.pairwise_cons] at hrising
  obtain ⟨-, ⟨hafter, -⟩, hbefore⟩ := hrising
  -- the other visits are neither at the path nor below it
  have hother : ∀ v ∈ before ++ after, ¬ f.path.components <+: v.path.components := by
    intro v hv
    rcases List.mem_append.1 hv with hv | hv
    · exact (hbefore _ (List.mem_map_of_mem hv) f.path List.mem_cons_self).incomparable.2
    · exact (hafter _ (List.mem_map_of_mem hv)).incomparable.1
  constructor
  · have hnone (visits : List Visit) (hv : ∀ v ∈ visits, ¬ f.path.components <+: v.path.components) :
        (visits.filterMap Visit.failure?).filter (fun g => f.path.components.isPrefixOf g.path.components) = [] := by
      rw [List.filter_eq_nil_iff]
      intro g hg
      obtain ⟨v, hmem, hfailed⟩ := List.mem_filterMap.1 hg
      cases v with
      | file path => cases hfailed
      | failed g' =>
        cases hfailed
        simpa [Visit.path] using hv _ hmem
    have hfailures : (t.walk root extensions).failures =
        before.filterMap Visit.failure? ++ f :: after.filterMap Visit.failure? := by
      simp [walk, h, Visit.failure?]
    rw [hfailures, List.filter_append, List.filter_cons_of_pos (by simp),
      hnone before fun v hv => hother v (List.mem_append_left _ hv),
      hnone after fun v hv => hother v (List.mem_append_right _ hv), List.nil_append]
  · intro p hp
    have hfile := file_mem_walkFrom hp
    rw [h, List.mem_append, List.mem_cons] at hfile
    apply hother (.file p)
    simpa using hfile

def Reaches (t : FileTree) (root : Path) (b : Branch) : Prop :=
  ∃ dir vs, t.locate true root = .ok dir ∧ t.entryAt? dir = some .directory ∧ t.Steps [t.enter ⟨dir, root⟩] vs b

theorem pending_root {root : Path} {dir : Place} (hroot : t.locate true root = .ok dir)
    (hdir : t.entryAt? dir = some .directory) : t.pending [t.enter ⟨dir, root⟩] = t.walkFrom root := by
  rw [pending_enter, walkFrom_directory hroot hdir]
  simp [pending, Branch.opened]

theorem Reaches.failsOnce (hw : t.WellFormed) {root : Path} {d : OpenDirectory} {name : String} {names : List String}
    {rest : Branch} {f : Failure} (h : t.Reaches root (⟨d, name :: names⟩ :: rest))
    (hturn : t.Turn (d :: rest.opened) d name [.failed f] []) (extensions : List String) :
    FailsOnce (t.walk root extensions) f := by
  obtain ⟨dir, vs, hroot, hdir, hsteps⟩ := h
  have hwalk := hsteps.pending_eq
  rw [pending_root hroot hdir, hturn.pending_eq names] at hwalk
  exact hw.failsOnce hwalk extensions

/-- A walk from a root ends, wherever the links lead. A link that leads nowhere and one to an open directory are one
failure each, and no path is found twice. -/
structure WalkEnds (t : FileTree) (root : Path) (extensions : List String) : Prop where
  ends : WellFounded t.Next
  alone : t.isDirectory root = false → ∃ v, t.walkFrom root = [v] ∧ v.path = root
  completes : ∀ dir, t.locate true root = .ok dir → t.entryAt? dir = some .directory → ∀ vs,
    t.Steps [t.enter ⟨dir, root⟩] vs [] ↔ vs = t.walkFrom root
  depth : ∀ b, t.Reaches root b → b.length ≤ t.directories.length * (t.height + 1)
  broken : ∀ d name names (rest : Branch) target fault, t.Reaches root (⟨d, name :: names⟩ :: rest) →
    t.entryAt? (d.place ++ [name]) = some (.link target) → t.locate true (d.path.join ⟨name⟩) = .error fault →
    ∃ f, faultVisit (d.path.join ⟨name⟩) fault = .failed f ∧ FailsOnce (t.walk root extensions) f
  loop : ∀ d name names (rest : Branch) target place, t.Reaches root (⟨d, name :: names⟩ :: rest) →
    t.entryAt? (d.place ++ [name]) = some (.link target) → t.locate true (d.path.join ⟨name⟩) = .ok place →
    (∃ o ∈ d :: rest.opened, o.place = place) → t.entryAt? place = some .directory →
    ∃ o ∈ d :: rest.opened, o.place = place ∧
      ∃ f, loopVisit (d.path.join ⟨name⟩) o.path = .failed f ∧ FailsOnce (t.walk root extensions) f
  distinct : (t.walk root extensions).files.Pairwise fun p q => p.components ≠ q.components

theorem walkFrom_alone {root : Path} (h : t.isDirectory root = false) :
    ∃ v, t.walkFrom root = [v] ∧ v.path = root := by
  rw [walkFrom]
  split
  · exact ⟨_, rfl, rfl⟩
  · split
    · exact ⟨_, rfl, rfl⟩
    · next place hplace =>
      have hdir : t.isDirectoryAt place = false := by simpa [isDirectory, locate?, hplace, Except.toOption] using h
      rw [hdir]
      exact ⟨_, rfl, rfl⟩

theorem walk_ends (t : FileTree) (hw : t.WellFormed) (root : Path) (extensions : List String) :
    t.WalkEnds root extensions where
  ends := t.wellFounded_next
  alone := walkFrom_alone
  completes := by
    intro dir hroot hdir vs
    have hpending {ws : List Visit} (h : t.Steps [t.enter ⟨dir, root⟩] ws []) : ws = t.walkFrom root := by
      have hall := h.pending_eq
      rw [pending_root hroot hdir, pending, List.append_nil] at hall
      exact hall.symm
    constructor
    · exact hpending
    · rintro rfl
      obtain ⟨ws, hsteps⟩ := exists_steps (t := t) [t.enter ⟨dir, root⟩]
      rw [← hpending hsteps]
      exact hsteps
  depth := by
    rintro b ⟨dir, vs, -, hdir, hsteps⟩
    exact (hsteps.short (short_enter hdir)).length_le
  broken := by
    intro d name names rest target fault hreaches hlink hlocate
    exact ⟨_, rfl, hreaches.failsOnce hw (.broken hlink hlocate) extensions⟩
  loop := by
    intro d name names rest target place hreaches hlink hlocate hopen hdir
    obtain ⟨o, ho⟩ : ∃ o, (d :: Branch.opened rest).find? (·.place == place) = some o := by
      rw [← Option.isSome_iff_exists, List.find?_isSome]
      simpa using hopen
    refine ⟨o, List.mem_of_find?_eq_some ho, by simpa using List.find?_some ho, _, rfl, ?_⟩
    exact hreaches.failsOnce hw (.loop hlink hlocate hdir ho) extensions
  distinct := (hw.spread_walk root extensions).distinct

/-- The link leads above the directory `repo`, which is so met again as a directory of the tree. -/
def returningTree : FileTree where
  entries := [(["repo"], .directory), (["repo", "rows"], .directory), (["repo", "rows", "up"], .link ⟨"../.."⟩)]
  workingDirectory := []

theorem returningTree_up (links : Nat) (rest : List (List Char)) :
    returningTree.locateFrom true (links + 1) [] ("repo".toList :: "rows".toList :: "up".toList :: rest) =
      returningTree.locateFrom true links [] rest := by
  have hlast : ¬ (rest.isEmpty && !true) = true := by simp
  have hrepo : returningTree.entryAt? ([] ++ [String.ofList "repo".toList]) = some .directory := rfl
  have hrows : returningTree.entryAt? (["repo"] ++ [String.ofList "rows".toList]) = some .directory := rfl
  have hup : returningTree.entryAt? (["repo", "rows"] ++ [String.ofList "up".toList]) = some (.link ⟨"../.."⟩) := rfl
  have hstart : start ⟨"../.."⟩ ["repo", "rows"] = ["repo", "rows"] := rfl
  have hsegments : (Path.mk "../..").segments = [['.', '.'], ['.', '.']] := rfl
  calc returningTree.locateFrom true (links + 1) [] ("repo".toList :: "rows".toList :: "up".toList :: rest)
      = returningTree.locateFrom true (links + 1) ["repo"] ("rows".toList :: "up".toList :: rest) :=
        locateFrom_directory (by decide) (by decide) hrepo
    _ = returningTree.locateFrom true (links + 1) ["repo", "rows"] ("up".toList :: rest) :=
        locateFrom_directory (by decide) (by decide) hrows
    _ = returningTree.locateFrom true links ["repo", "rows"] (['.', '.'] :: ['.', '.'] :: rest) :=
        locateFrom_followed (by decide) (by decide) hup hlast
    _ = returningTree.locateFrom true links [] rest := by
        rw [locateFrom_up, locateFrom_up]
        rfl

theorem returningTree_locate : returningTree.locate true ⟨"repo/rows/up"⟩ = .ok [] ∧
    returningTree.locate true ⟨"repo/rows/up/repo/rows/up"⟩ = .ok [] := by
  have hdone (links : Nat) : returningTree.locateFrom true links [] [] = .ok [] := by rw [locateFrom]
  constructor
  · rw [← hdone 39, ← returningTree_up]
    rfl
  · rw [← hdone 38, ← returningTree_up, ← returningTree_up]
    rfl

theorem returningTree_enter (path : Path) :
    returningTree.enter ⟨[], path⟩ = ⟨⟨[], path⟩, ["repo"]⟩ ∧
      returningTree.enter ⟨["repo"], path⟩ = ⟨⟨["repo"], path⟩, ["rows"]⟩ ∧
      returningTree.enter ⟨["repo", "rows"], path⟩ = ⟨⟨["repo", "rows"], path⟩, ["up"]⟩ := by
  simp [enter, children, returningTree]

theorem returningTree_steps (path : Path) (rest : Branch) : returningTree.Steps
    (returningTree.enter ⟨["repo"], path⟩ :: rest) []
    (⟨⟨["repo", "rows"], path.join ⟨"rows"⟩⟩, ["up"]⟩ :: ⟨⟨["repo"], path⟩, []⟩ :: rest) := by
  rw [(returningTree_enter path).2.1, ← (returningTree_enter _).2.2]
  exact .step (.turn [] (.directory rfl)) (.done _)

theorem returningTree_reaches : returningTree.Reaches ⟨"repo"⟩
    [⟨⟨["repo", "rows"], ⟨"repo/rows/up/repo/rows"⟩⟩, ["up"]⟩, ⟨⟨["repo"], ⟨"repo/rows/up/repo"⟩⟩, []⟩,
      ⟨⟨[], ⟨"repo/rows/up"⟩⟩, []⟩, ⟨⟨["repo", "rows"], ⟨"repo/rows"⟩⟩, []⟩, ⟨⟨["repo"], ⟨"repo"⟩⟩, []⟩] := by
  have hname : IsName "repo" := by decide
  have hroot : returningTree.LeadsTo ⟨"repo"⟩ ["repo"] := hname.leadsTo rfl
  refine ⟨["repo"], [], hroot.locate_eq true, rfl, ?_⟩
  apply (returningTree_steps ⟨"repo"⟩ []).trans
  apply Steps.step (.turn [] (.follow rfl returningTree_locate.1 rfl rfl))
  rw [(returningTree_enter _).1]
  exact .step (.turn [] (.directory rfl)) (returningTree_steps ⟨"repo/rows/up/repo"⟩ _)

/-- The loop is found where the link is met for the second time. -/
theorem walk_ends_returningTree : returningTree.WellFormed ∧ returningTree.WalkEnds ⟨"repo"⟩ ["java"] ∧
    FailsOnce (returningTree.walk ⟨"repo"⟩ ["java"]) ⟨⟨"repo/rows/up/repo/rows/up"⟩,
      "File system loop found: repo/rows/up/repo/rows/up points to an ancestor repo/rows/up"⟩ := by
  have hformed : returningTree.WellFormed := by decide
  have hends := walk_ends returningTree hformed ⟨"repo"⟩ ["java"]
  refine ⟨hformed, hends, ?_⟩
  obtain ⟨o, ho, hplace, f, hf, hfails⟩ := hends.loop _ _ _ _ ⟨"../.."⟩ [] returningTree_reaches rfl
    returningTree_locate.2 ⟨⟨[], ⟨"repo/rows/up"⟩⟩, by simp [Branch.opened], rfl⟩ rfl
  simp only [Branch.opened, List.map_cons, List.map_nil, List.mem_cons, List.not_mem_nil, or_false] at ho
  rcases ho with rfl | rfl | rfl | rfl | rfl
  · cases hplace
  · cases hplace
  · cases hf
    exact hfails
  · cases hplace
  · cases hplace

end FileTree

end Granularity
