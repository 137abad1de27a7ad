import Granularity.Proofs.Crew
import Granularity.Proofs.Walks

/-!
A thread that calls for scans. It opens and closes scopes of its own and hands the files of each scan to workers, of
which it may be one; it goes on when all results are in. A scan whose directory is missing is passed over. When a task
has ended in which each scope is closed again, all threads have the contexts that they had before.
-/

namespace Granularity

structure Job where
  Item : Type
  target : Target
  read : FileReader Item

inductive Task where
  | enter (scope : Scope)
  | leave
  | scan (job : Job)

/-- The files that are there, the threads that take them, and the thread that calls. -/
structure Engine where
  tree : FileTree
  works : Nat → Prop
  caller : Nat

/-- How far a run is, with the tasks that are left. -/
inductive Moment where
  | calling (tasks : List Task) (a : Activity)
  | starting (job : Job) (tasks : List Task) (a : Activity)
  | scanning (job : Job) (phase? : Option Phase) (tasks : List Task) (c : Crew job.Item)

namespace Moment

def activity : Moment → Activity
  | .calling _ a => a
  | .starting _ _ a => a
  | .scanning _ _ _ c => c.toActivity

def size : Moment → Nat
  | .calling tasks _ => 2 * tasks.length
  | .starting _ tasks _ => 2 * tasks.length + 1
  | .scanning _ _ tasks _ => 2 * tasks.length + 1

end Moment

namespace Engine

def found (e : Engine) (job : Job) : FileTree.Discovery := e.tree.walk job.target.directory job.target.extensions

def isThere (e : Engine) (job : Job) : Bool := e.tree.isDirectory job.target.directory

def work (e : Engine) (job : Job) (phase? : Option Phase) : Work job.Item :=
  ⟨e.works, (e.found job).files, scanFile e.tree job.target.root job.read, phase?⟩

/-- The two counters are set one after the other, before a worker begins. -/
inductive Step (e : Engine) : Moment → Moment → Prop where
  | enter {scope : Scope} {tasks : List Task} {a : Activity} :
      Step e (.calling (.enter scope :: tasks) a) (.calling tasks (a.act e.caller (.enter scope)))
  | leave {tasks : List Task} {a : Activity} :
      Step e (.calling (.leave :: tasks) a) (.calling tasks (a.act e.caller .leave))
  | skip {job : Job} {tasks : List Task} {a : Activity} : e.isThere job = false →
      Step e (.calling (.scan job :: tasks) a) (.calling tasks a)
  | reset {job : Job} {tasks : List Task} {a : Activity} : e.isThere job = true →
      Step e (.calling (.scan job :: tasks) a) (.starting job tasks { a with progress := a.progress.reset })
  | expect {job : Job} {tasks : List Task} {a : Activity} :
      Step e (.starting job tasks a) (.scanning job (a.threads e.caller).context.phase tasks
        (.start { a with progress := a.progress.expect (e.found job).files.length }))
  | work {job : Job} {phase? : Option Phase} {tasks : List Task} {c c' : Crew job.Item} :
      Crew.Step (e.work job phase?) c c' → Step e (.scanning job phase? tasks c) (.scanning job phase? tasks c')
  | gather {job : Job} {phase? : Option Phase} {tasks : List Task} {c : Crew job.Item} :
      c.pool.Finished (e.found job).files.length → Step e (.scanning job phase? tasks c) (.calling tasks c.toActivity)

abbrev Steps (e : Engine) : Moment → Moment → Prop := Relation.ReflTransGen e.Step

variable {e : Engine} {job : Job} {tasks : List Task} {a b : Activity} {p q : Moment}

theorem size_step (h : e.Step p q) : q.size ≤ p.size := by
  cases h <;> simp only [Moment.size, List.length_cons] <;> omega

theorem size_step_lt (h : e.Step (.calling tasks a) q) : q.size < 2 * tasks.length := by
  cases h <;> simp only [Moment.size, List.length_cons] <;> omega

theorem size_steps (h : e.Steps p q) : q.size ≤ p.size := by
  induction h with
  | refl => exact Nat.le_refl _
  | tail _ h ih => exact (size_step h).trans ih

theorem eq_of_calling (h : e.Steps (.calling tasks a) (.calling tasks b)) : a = b := by
  rcases h.cases_head with heq | ⟨q, hstep, hsteps⟩
  · cases heq
    rfl
  · have hlt := (size_steps hsteps).trans_lt (size_step_lt hstep)
    exact absurd hlt (Nat.lt_irrefl _)

theorem enter_inv {scope : Scope} (h : e.Steps (.calling (.enter scope :: tasks) a) q) :
    q = .calling (.enter scope :: tasks) a ∨ e.Steps (.calling tasks (a.act e.caller (.enter scope))) q := by
  rcases h.cases_head with heq | ⟨p, hstep, hsteps⟩
  · exact Or.inl heq.symm
  · cases hstep
    exact Or.inr hsteps

theorem leave_inv (h : e.Steps (.calling (.leave :: tasks) a) q) :
    q = .calling (.leave :: tasks) a ∨ e.Steps (.calling tasks (a.act e.caller .leave)) q := by
  rcases h.cases_head with heq | ⟨p, hstep, hsteps⟩
  · exact Or.inl heq.symm
  · cases hstep
    exact Or.inr hsteps

inductive Within (e : Engine) (job : Job) (tasks : List Task) (a : Activity) : Moment → Prop where
  | before : Within e job tasks a (.calling (.scan job :: tasks) a)
  | starting : e.isThere job = true → Within e job tasks a (.starting job tasks { a with progress := a.progress.reset })
  | scanning {c : Crew job.Item} : e.isThere job = true →
      Crew.Steps (e.work job (a.threads e.caller).context.phase)
        (.start { a with progress := a.progress.start (e.found job).files.length }) c →
      Within e job tasks a (.scanning job (a.threads e.caller).context.phase tasks c)

inductive Scans (e : Engine) (job : Job) (a : Activity) : Activity → Prop where
  | missing : e.isThere job = false → Scans e job a a
  | finished {c : Crew job.Item} : e.isThere job = true →
      Crew.Steps (e.work job (a.threads e.caller).context.phase)
        (.start { a with progress := a.progress.start (e.found job).files.length }) c →
      c.pool.Finished (e.found job).files.length → Scans e job a c.toActivity

/-- A run that is to scan is still within the scan, or went on from its end. -/
theorem scan_inv (h : e.Steps (.calling (.scan job :: tasks) a) q) :
    e.Within job tasks a q ∨ ∃ b, e.Scans job a b ∧ e.Steps (.calling tasks b) q := by
  induction h with
  | refl => exact Or.inl .before
  | tail _ hstep ih =>
    rcases ih with hwithin | ⟨b, hscans, hsteps⟩
    · cases hwithin with
      | before =>
        cases hstep with
        | skip hmissing => exact Or.inr ⟨a, .missing hmissing, .refl⟩
        | reset hthere => exact Or.inl (.starting hthere)
      | starting hthere =>
        cases hstep with
        | expect => exact Or.inl (.scanning hthere .refl)
      | scanning hthere hcrew =>
        cases hstep with
        | work hwork => exact Or.inl (.scanning hthere (hcrew.tail hwork))
        | gather hfinished => exact Or.inr ⟨_, .finished hthere hcrew hfinished, .refl⟩
    · exact Or.inr ⟨b, hscans, hsteps.tail hstep⟩

theorem start_sound (e : Engine) (job : Job) (a : Activity) (phase? : Option Phase) :
    Crew.Sound (e.work job phase?) { a with progress := a.progress.start (e.found job).files.length }
      (.start { a with progress := a.progress.start (e.found job).files.length }) :=
  Crew.start_sound rfl

end Engine

namespace Activity

/-- Every thread has closed what it opened. -/
def Returns (a b : Activity) : Prop := ∀ v, (a.threads v).Returns (b.threads v)

variable {a b c : Activity}

theorem Returns.refl (a : Activity) : a.Returns a := fun v => .refl (a.threads v)

theorem Returns.trans (h : a.Returns b) (h' : b.Returns c) : a.Returns c := fun v => (h v).trans (h' v)

theorem Returns.scope {w : Nat} {scope : Scope} (h : (a.act w (.enter scope)).Returns b) :
    a.Returns (b.act w .leave) := by
  intro v
  have hv := h v
  by_cases heq : v = w
  · subst heq
    simp only [act, Function.update_self] at hv ⊢
    exact Holder.Returns.scope hv
  · simpa [act, heq] using hv

theorem Returns.context_eq (h : a.Returns b) (v : Nat) : (b.threads v).context = (a.threads v).context :=
  (h v).thread.context_eq

end Activity

namespace Engine

variable {e : Engine} {job : Job} {tasks : List Task} {a b : Activity} {q : Moment}

theorem Scans.returns (h : e.Scans job a b) : a.Returns b := by
  cases h with
  | missing => exact .refl a
  | finished _ hcrew hfinished => exact (Crew.steps_sound (start_sound ..) hcrew).returns hfinished

theorem Scans.progress_eq (h : e.Scans job a b) :
    b.progress = (scan e.tree job.target job.read).progress.getD a.progress := by
  cases h with
  | missing hmissing =>
    have hscan : (scan e.tree job.target job.read).progress = none := by
      have hnot : e.tree.isDirectory job.target.directory = false := hmissing
      simp [scan, hnot]
    rw [hscan, Option.getD_none]
  | finished hthere hcrew hfinished =>
    rw [scan_of_directory job.read hthere]
    exact (Crew.steps_sound (start_sound ..) hcrew).progress_eq hfinished

theorem scans_of_steps (h : e.Steps (.calling (.scan job :: tasks) a) (.calling tasks b)) : e.Scans job a b := by
  rcases scan_inv h with hwithin | ⟨b', hscans, hsteps⟩
  · cases hwithin
  · rwa [← eq_of_calling hsteps]

end Engine

/-- Tasks in which each scope is closed again. -/
inductive Task.Balanced : List Task → Prop where
  | nil : Balanced []
  | scan {job : Job} {tasks : List Task} : Balanced tasks → Balanced (.scan job :: tasks)
  | scope {scope : Scope} {inside tasks : List Task} : Balanced inside → Balanced tasks →
      Balanced (.enter scope :: (inside ++ .leave :: tasks))

namespace Engine

variable {e : Engine} {job : Job} {tasks body : List Task} {a b : Activity} {q : Moment}

/-- A run with balanced tasks still has some of them to do, or went on from where every thread had closed what it
opened. -/
theorem balanced_inv (hb : Task.Balanced body) (h : e.Steps (.calling (body ++ tasks) a) q) :
    2 * tasks.length < q.size ∨ ∃ b, a.Returns b ∧ e.Steps (.calling tasks b) q := by
  induction hb generalizing tasks a with
  | nil => exact Or.inr ⟨a, .refl a, h⟩
  | @scan job rest _ ih =>
    rw [List.cons_append] at h
    rcases scan_inv h with hwithin | ⟨b, hscans, hsteps⟩
    · left
      cases hwithin <;> simp only [Moment.size, List.length_append, List.length_cons] <;> omega
    · refine (ih hsteps).imp_right ?_
      rintro ⟨b', hreturns, hsteps'⟩
      exact ⟨b', hscans.returns.trans hreturns, hsteps'⟩
  | @scope scope inside rest _ _ ihinside ih =>
    rw [List.cons_append, List.append_assoc, List.cons_append] at h
    rcases enter_inv h with rfl | hsteps
    · left
      simp only [Moment.size, List.length_append, List.length_cons]
      omega
    rcases ihinside hsteps with hsize | ⟨b, hreturns, hsteps⟩
    · left
      simp only [List.length_append, List.length_cons] at hsize
      omega
    rcases leave_inv hsteps with rfl | hsteps
    · left
      simp only [Moment.size, List.length_append, List.length_cons]
      omega
    refine (ih hsteps).imp_right ?_
    rintro ⟨b', hreturns', hsteps'⟩
    exact ⟨b', hreturns.scope.trans hreturns', hsteps'⟩

theorem returns_of_balanced (hb : Task.Balanced body) (h : e.Steps (.calling (body ++ tasks) a) (.calling tasks b)) :
    a.Returns b := by
  rcases balanced_inv hb h with hsize | ⟨b', hreturns, hsteps⟩
  · exact absurd hsize (Nat.lt_irrefl _)
  · rwa [← eq_of_calling hsteps]

theorem sound_of_steps {phase? : Option Phase} {c : Crew job.Item}
    (h : e.Steps (.calling (.scan job :: tasks) a) (.scanning job phase? tasks c)) :
    phase? = (a.threads e.caller).context.phase ∧
      Crew.Sound (e.work job phase?) { a with progress := a.progress.start (e.found job).files.length } c := by
  rcases scan_inv h with hwithin | ⟨b, -, hsteps⟩
  · cases hwithin with
    | scanning _ hcrew => exact ⟨rfl, Crew.steps_sound (start_sound ..) hcrew⟩
  · have hle := size_steps hsteps
    simp only [Moment.size] at hle
    omega

theorem exists_scan {w : Nat} (hw : e.works w) (job : Job) (tasks : List Task) (a : Activity) :
    ∃ b, e.Steps (.calling (.scan job :: tasks) a) (.calling tasks b) := by
  cases hthere : e.isThere job with
  | false => exact ⟨a, .single (.skip hthere)⟩
  | true =>
    have hlift {c c' : Crew job.Item} {phase? : Option Phase} (h : Crew.Steps (e.work job phase?) c c') :
        e.Steps (.scanning job phase? tasks c) (.scanning job phase? tasks c') := by
      induction h with
      | refl => exact .refl
      | tail _ h ih => exact ih.tail (.work h)
    obtain ⟨c, hcrew, hfinished⟩ := Crew.exists_finished (k := e.work job (a.threads e.caller).context.phase) hw
      { a with progress := a.progress.start (e.found job).files.length }
    have hstart : e.Steps (.calling (.scan job :: tasks) a) (.scanning job (a.threads e.caller).context.phase tasks
        (.start { a with progress := a.progress.start (e.found job).files.length })) :=
      .head (.reset hthere) (.single .expect)
    exact ⟨c.toActivity, (hstart.trans (hlift hcrew)).tail (.gather hfinished)⟩

theorem exists_end {w : Nat} (hw : e.works w) (tasks rest : List Task) (a : Activity) :
    ∃ b, e.Steps (.calling (tasks ++ rest) a) (.calling rest b) := by
  induction tasks generalizing a with
  | nil => exact ⟨a, .refl⟩
  | cons task tasks ih =>
    obtain ⟨b, hfirst⟩ : ∃ b, e.Steps (.calling (task :: (tasks ++ rest)) a) (.calling (tasks ++ rest) b) := by
      cases task with
      | enter scope => exact ⟨_, .single .enter⟩
      | leave => exact ⟨_, .single .leave⟩
      | scan job => exact exists_scan hw job (tasks ++ rest) a
    obtain ⟨b', hrest⟩ := ih b
    exact ⟨b', hfirst.trans hrest⟩

end Engine

def Detector.tasks (ds : List Detector) : List Task := ds.flatMap fun d => [.enter (.detector d.name), .leave]

theorem Detector.balanced_tasks (ds : List Detector) : Task.Balanced (tasks ds) := by
  induction ds with
  | nil => exact .nil
  | cons d ds ih => exact .scope .nil ih

theorem Work.inside_scopes {α : Type} (k : Work α) (path : Path) (c : Context) :
    c.inside (k.scopes path).reverse = { c with phase := k.phase?.or c.phase, file := some path } := by
  unfold Work.scopes
  cases k.phase? <;> rfl

/-- In a program whose scopes are closed in the reverse order of their opening, each field of the context is at every
point what the innermost open scope that sets it says, and what it was at first if there is none; and each scope that
is closed brings back the context from before it was opened. So a scan leaves all threads with the contexts that they
had, in whatever order its workers act, while at the reading of a file the worker is in the phase of the caller and in
this file; and so do detectors. -/
theorem contexts_nest :
    (∀ (t : Thread) (moves : List Move), t.WellNested moves →
      (∀ point, point <+: moves → (t.moveAll point).context = t.context.inside (t.opened point)) ∧
      ∀ before scope inside, before ++ .enter scope :: inside ++ [.leave (t.moveAll before).saved.length] <+: moves →
        (t.moveAll (before ++ .enter scope :: inside ++ [.leave (t.moveAll before).saved.length])).context =
          (t.moveAll before).context) ∧
    (∀ (e : Engine) (job : Job) (tasks : List Task) (a : Activity),
      (∀ b, e.Steps (.calling (.scan job :: tasks) a) (.calling tasks b) →
        ∀ v, (b.threads v).context = (a.threads v).context) ∧
      ∀ phase? c w i path rest, e.Steps (.calling (.scan job :: tasks) a) (.scanning job phase? tasks c) →
        c.pool.reading w = some i → (e.found job).files[i]? = some path → c.todo w = .count :: rest →
        (c.threads w).context = { (a.threads w).context with
          phase := (a.threads e.caller).context.phase.or (a.threads w).context.phase, file := some path }) ∧
    ∀ (e : Engine) (ds : List Detector) (tasks : List Task) (a b : Activity),
      e.Steps (.calling (Detector.tasks ds ++ tasks) a) (.calling tasks b) →
        ∀ v, (b.threads v).context = (a.threads v).context := by
  refine ⟨fun t moves h => ⟨fun point hpoint => ?_, fun before scope inside hclosed => ?_⟩,
    fun e job tasks a => ⟨fun b h => ?_, fun phase? c w i path rest h hw hi hx => ?_⟩, fun e ds tasks a b h => ?_⟩
  · exact (h.of_isPrefix hpoint).context_eq
  · exact (h.of_isPrefix hclosed).context_closed
  · exact (Engine.scans_of_steps h).returns.context_eq
  · obtain ⟨rfl, hsound⟩ := Engine.sound_of_steps h
    rw [hsound.context_counting hw hi hx, Work.inside_scopes]
    rfl
  · exact (Engine.returns_of_balanced (Detector.balanced_tasks ds) h).context_eq

section Damaged

open FileTree

/-- A record, and a file beside it that is no text. -/
def damagedTree : FileTree where
  entries := [(["rows"], .directory), (["rows", "A.java"], .file "public class ARow \x7b".toUTF8),
    (["rows", "B.java"], .file ⟨#[0xff]⟩)]
  workingDirectory := []

theorem damagedTree_leadsTo : damagedTree.LeadsTo ⟨"./rows"⟩ ["rows"] :=
  ⟨by decide, .stay (Or.inr rfl) (.down (by decide) (by decide) rfl (.done _))⟩

theorem damagedTree_isDirectory : damagedTree.isDirectory ⟨"./rows"⟩ = true :=
  isDirectory_iff.2 ⟨["rows"], damagedTree_leadsTo.locate_eq true, rfl⟩

theorem damagedTree_walk : damagedTree.walk ⟨"./rows"⟩ ["java"] = ⟨[⟨"./rows/A.java"⟩, ⟨"./rows/B.java"⟩], []⟩ := by
  have hlinks : damagedTree.LinkFree := by simp [LinkFree, damagedTree]
  have hnames : damagedTree.children ["rows"] = ["A.java", "B.java"] := List.mergeSort_of_pairwise (by decide)
  have hmet : damagedTree.walkFrom ⟨"./rows"⟩ = [.file ⟨"./rows/A.java"⟩, .file ⟨"./rows/B.java"⟩] := by
    rw [damagedTree_leadsTo.walkFrom_eq rfl, hlinks.visits_eq, hnames]
    decide
  rw [walk, hmet]
  decide

def pairEngine : Engine := ⟨damagedTree, (· < 2), 0⟩

def rowsJob : Job := ⟨Schema, ⟨⟨"."⟩, ⟨"./rows"⟩, "Input row", ["java"]⟩, Analysis.schemaReader .default⟩

/-- The first thread is in a phase, the others are not. -/
def detecting : Activity := ⟨.none, fun v => ⟨⟨⟨if v = 0 then some .detection else none, none, none⟩, []⟩, []⟩⟩

/-- A phase with a file in it, which is closed again, and a detector. -/
def detour : List Move :=
  [.enter (.phase .scoring), .enter (.file ⟨"A.java"⟩), .leave 1, .enter (.detector "pattern_a")]

theorem contexts_nest_pair :
    ((⟨.empty, []⟩ : Thread).WellNested (detour ++ [.leave 2, .leave 0]) ∧
      ((⟨.empty, []⟩ : Thread).moveAll detour).context = ⟨some .scoring, none, some "pattern_a"⟩ ∧
      ((⟨.empty, []⟩ : Thread).moveAll (detour ++ [.leave 2, .leave 0])).context = .empty) ∧
    (∃ c, pairEngine.Steps (.calling [.scan rowsJob] detecting) (.scanning rowsJob (some .detection) [] c) ∧
      (c.threads 1).context = ⟨some .detection, some ⟨"./rows/B.java"⟩, none⟩) ∧
    (∃ b, pairEngine.Steps (.calling [.scan rowsJob] detecting) (.calling [] b) ∧
      ∀ v, (b.threads v).context = (detecting.threads v).context) ∧
    ∃ b, pairEngine.Steps (.calling (Detector.tasks (Detector.all .default) ++ []) detecting) (.calling [] b) ∧
      ∀ v, (b.threads v).context = (detecting.threads v).context := by
  have hworks : pairEngine.works 0 := Nat.two_pos
  have hsecond : (pairEngine.found rowsJob).files[1]? = some ⟨"./rows/B.java"⟩ :=
    congrArg (fun found : Discovery => found.files[1]?) damagedTree_walk
  have hnested : (⟨.empty, []⟩ : Thread).WellNested (detour ++ [.leave 2, .leave 0]) := rfl
  obtain ⟨hprograms, hscans, hdetectors⟩ := contexts_nest
  refine ⟨⟨hnested, ?_, ?_⟩, ?_, ?_, ?_⟩
  · exact (hprograms _ _ hnested).1 detour (List.prefix_append ..)
  · exact (hprograms _ _ hnested).2 [] (.phase .scoring) (detour.tail ++ [.leave 2]) (List.prefix_refl _)
  · -- The second thread takes the second file and opens the scopes of the phase and of the file.
    have hrun := Relation.ReflTransGen.refl (r := pairEngine.Step) (a := .calling [.scan rowsJob] detecting)
      |>.tail (.reset damagedTree_isDirectory) |>.tail .expect
      |>.tail (.work (.take (w := 1) (i := 1) Nat.one_lt_two rfl hsecond (Finset.notMem_empty 1)))
      |>.tail (.work (.act (w := 1) rfl)) |>.tail (.work (.act (w := 1) rfl))
    exact ⟨_, hrun, (hscans pairEngine rowsJob [] detecting).2 _ _ 1 1 _ _ hrun rfl hsecond rfl⟩
  · obtain ⟨b, hrun⟩ := Engine.exists_scan hworks rowsJob [] detecting
    exact ⟨b, hrun, (hscans pairEngine rowsJob [] detecting).1 b hrun⟩
  · obtain ⟨b, hrun⟩ := Engine.exists_end hworks (Detector.tasks (Detector.all .default)) [] detecting
    exact ⟨b, hrun, hdetectors pairEngine (Detector.all .default) [] detecting b hrun⟩

end Damaged

end Granularity
