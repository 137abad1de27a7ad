import Granularity.Proofs.Nearest
import Granularity.Proofs.Tasks

/-!
The counters of an analysis. They are set anew by each of its four scans and then counted up by any number of workers,
file by file, whether a file could be read or not. At no moment are more files done than there are, and after a scan all
files that it found are done.
-/

namespace Granularity

theorem Progress.percent_le {p : Progress} (h : p.processed ≤ p.total) : p.percent ≤ 100 :=
  Nat.div_le_of_le_mul (Nat.mul_le_mul_right 100 h)

def Progress.after (t : FileTree) (p : Progress) : Task → Progress
  | .scan job => (scan t job.target job.read).progress.getD p
  | _ => p

namespace Engine

variable {e : Engine} {job : Job} {tasks : List Task} {a b : Activity} {p q : Moment}

inductive Counted (e : Engine) : Moment → Prop where
  | calling {tasks : List Task} {a : Activity} : a.progress.processed ≤ a.progress.total → Counted e (.calling tasks a)
  | starting {job : Job} {tasks : List Task} {a : Activity} : a.progress.processed = 0 →
      Counted e (.starting job tasks a)
  | scanning {job : Job} {phase? : Option Phase} {tasks : List Task} {before : Activity} {c : Crew job.Item} :
      Crew.Sound (e.work job phase?) before c → Counted e (.scanning job phase? tasks c)

theorem Counted.processed_le (h : e.Counted q) : q.activity.progress.processed ≤ q.activity.progress.total := by
  cases h with
  | calling h => exact h
  | starting h => exact h.trans_le (Nat.zero_le _)
  | scanning h => exact h.processed_le.trans_eq h.total.symm

theorem step_counted (hp : e.Counted p) (h : e.Step p q) : e.Counted q := by
  cases h with
  | enter => exact .calling hp.processed_le
  | leave => exact .calling hp.processed_le
  | skip => exact .calling hp.processed_le
  | reset => exact .starting rfl
  | expect =>
    cases hp with
    | starting hzero => exact .scanning (Crew.start_sound (by simp [Progress.expect, hzero, work]))
  | work hwork =>
    cases hp with
    | scanning hsound => exact .scanning (Crew.step_sound hsound hwork)
  | gather => exact .calling hp.processed_le

theorem steps_counted (hp : e.Counted p) (h : e.Steps p q) : e.Counted q := by
  induction h with
  | refl => exact hp
  | tail _ h ih => exact step_counted ih h

/-- Two looks at the counters during a scan: the files that were done at one moment are no more than there are at any
other. -/
theorem Counted.apart {phase? phase?' : Option Phase} {tasks' : List Task} {c c' : Crew job.Item}
    (h : e.Counted (.scanning job phase? tasks c)) (h' : e.Counted (.scanning job phase?' tasks' c')) :
    c.progress.processed ≤ c'.progress.total := by
  cases h with
  | scanning hsound =>
    cases h' with
    | scanning hsound' => exact hsound.processed_le.trans_eq hsound'.total.symm

theorem Scans.progress_of_there (h : e.Scans job a b) (hthere : e.isThere job = true) :
    b.progress = ⟨(e.found job).files.length, (e.found job).files.length⟩ := by
  rw [h.progress_eq, scan_of_directory job.read hthere]
  rfl

theorem Scans.progress_of_missing (h : e.Scans job a b) (hmissing : e.isThere job = false) :
    b.progress = a.progress := by
  cases h with
  | missing => rfl
  | finished hthere => simp [hmissing] at hthere

theorem progress_of_steps (h : e.Steps (.calling tasks a) (.calling [] b)) :
    b.progress = tasks.foldl (Progress.after e.tree) a.progress := by
  induction tasks generalizing a with
  | nil => rw [eq_of_calling h, List.foldl_nil]
  | cons task tasks ih =>
    rw [List.foldl_cons]
    cases task with
    | enter scope =>
      rcases enter_inv h with heq | hsteps
      · cases heq
      · rw [ih hsteps]
        rfl
    | leave =>
      rcases leave_inv h with heq | hsteps
      · cases heq
      · rw [ih hsteps]
        rfl
    | scan job =>
      rcases scan_inv h with hwithin | ⟨b', hscans, hsteps⟩
      · cases hwithin
      · rw [ih hsteps, hscans.progress_eq]
        rfl

end Engine

/-- The threads that take files: as many as there are workers, or the calling thread alone. -/
def Workers.takes (w : Workers) (cores : ℕ+) (caller v : Nat) : Prop :=
  if w.enabled then v < w.size cores else v = caller

theorem Workers.exists_takes (w : Workers) (cores : ℕ+) (caller : Nat) : ∃ v, w.takes cores caller v := by
  unfold Workers.takes
  cases w.enabled with
  | true => exact ⟨0, w.size_pos cores⟩
  | false => exact ⟨caller, rfl⟩

namespace Analysis

def recordJob (root : Path) (s : Settings) : Job := ⟨Schema, recordTarget root s, schemaReader s.conventions⟩

def containerJob (root : Path) (s : Settings) : Job :=
  ⟨String × Container, containerTarget root s, Container.read s.conventions⟩

def accessorJob (root : Path) (s : Settings) : Job := ⟨Accessor, containerTarget root s, accessorReader⟩

def warningJob (root : Path) (s : Settings) : Job :=
  ⟨WarningSite, validationTarget root s, warningReader s.conventions.warningCall⟩

def stageTasks (phase : Phase) (job : Job) : List Task := [.enter (.phase phase), .scan job, .leave]

/-- What an analysis does: four scans, the detectors, and scoring. Without its root it does nothing. -/
def tasks (t : FileTree) (root : Path) (s : Settings) : List Task :=
  if t.pathExists root then
    stageTasks .schemaExtraction (recordJob root s) ++ stageTasks .mapExtraction (containerJob root s) ++
    stageTasks .accessorExtraction (accessorJob root s) ++ stageTasks .detection (warningJob root s) ++
    .enter (.phase .detection) :: Detector.tasks (Detector.all s.conventions) ++
    [.leave, .enter (.phase .scoring), .leave]
  else []

def engine (cores : ℕ+) (t : FileTree) (s : Settings) (caller : Nat) : Engine :=
  ⟨t, s.workers.takes cores caller, caller⟩

/-- The moments that an analysis can come to, in some order of what its workers do. -/
def Reaches (cores : ℕ+) (t : FileTree) (root : Path) (s : Settings) (caller : Nat) (a : Activity) : Moment → Prop :=
  (engine cores t s caller).Steps (.calling (tasks t root s) a)

theorem progress_tasks {t : FileTree} {root : Path} {s : Settings} {o : Outcome} (h : run t root s = .ok o) :
    (tasks t root s).foldl (Progress.after t) .none = o.progress := by
  unfold run at h
  cases hroot : t.pathExists root with
  | false => simp [hroot] at h
  | true =>
    rw [if_pos hroot] at h
    cases h
    rw [tasks, if_pos hroot]
    rfl

/-- At no moment of an analysis are more files done than there are, in whatever order its workers act, so the share that
a crash report names is at most all of them, also if it reads the two counters at different moments of a scan. A
scan that finds its directory leaves all the files it found as done, whether they could be read or not; one that does
not leaves the counters as they were. Some order leads to the end, and every one that does leaves the counters that the
analysis gives. -/
theorem counters_consistent (cores : ℕ+) (t : FileTree) (root : Path) (s : Settings) (caller : Nat) (a : Activity)
    (h : a.progress.processed ≤ a.progress.total) :
    (∀ q, Reaches cores t root s caller a q →
      q.activity.progress.processed ≤ q.activity.progress.total ∧ q.activity.progress.percent ≤ 100) ∧
    (∀ job phase? rest c c', Reaches cores t root s caller a (.scanning job phase? rest c) →
      (engine cores t s caller).Steps (.scanning job phase? rest c) (.scanning job phase? rest c') →
      (⟨c.progress.processed, c'.progress.total⟩ : Progress).percent ≤ 100) ∧
    (∀ job rest b b', Reaches cores t root s caller a (.calling (.scan job :: rest) b) →
      (engine cores t s caller).Steps (.calling (.scan job :: rest) b) (.calling rest b') →
      (t.isDirectory job.target.directory = true → b'.progress.processed = b'.progress.total ∧
        b'.progress.total = (t.walk job.target.directory job.target.extensions).files.length) ∧
      (t.isDirectory job.target.directory = false → b'.progress = b.progress)) ∧
    (∃ b, Reaches cores t root s caller a (.calling [] b)) ∧
    ∀ b o, Reaches cores t root s caller a (.calling [] b) → run t root s = .ok o → a.progress = .none →
      b.progress = o.progress := by
  have hcounted {q : Moment} (hq : Reaches cores t root s caller a q) : (engine cores t s caller).Counted q :=
    Engine.steps_counted (.calling h) hq
  refine ⟨fun q hq => ?_, fun job phase? rest c c' hc hc' => ?_, fun job rest b b' _ hb => ⟨fun hthere => ?_, ?_⟩, ?_,
    fun b o hb ho hnone => ?_⟩
  · have hle := (hcounted hq).processed_le
    exact ⟨hle, Progress.percent_le hle⟩
  · apply Progress.percent_le
    exact (hcounted hc).apart (hcounted (Relation.ReflTransGen.trans hc hc'))
  · rw [(Engine.scans_of_steps hb).progress_of_there hthere]
    exact ⟨rfl, rfl⟩
  · exact (Engine.scans_of_steps hb).progress_of_missing
  · obtain ⟨w, hw⟩ := s.workers.exists_takes cores caller
    have hend := Engine.exists_end (e := engine cores t s caller) hw (tasks t root s) [] a
    rwa [List.append_nil] at hend
  · rw [Engine.progress_of_steps hb, hnone]
    exact progress_tasks ho

/-- Of the directories that they name only that of the records is there. -/
def recordSettings : Settings := { Settings.default with layout := ⟨⟨"rows"⟩, ⟨"data"⟩, ⟨"validation"⟩, ["java"]⟩ }

theorem damagedTree_root : damagedTree.LeadsTo ⟨"."⟩ [] :=
  ⟨by decide, .stay (Or.inr (by decide)) (.done [])⟩

theorem damagedTree_exists : damagedTree.pathExists ⟨"."⟩ = true := by
  simp [FileTree.pathExists, FileTree.locate?, damagedTree_root.locate_eq, Except.toOption]

theorem damagedTree_no_data : damagedTree.isDirectory ⟨"./data"⟩ = false := by
  have hname : FileTree.IsName "data" := by decide
  have hmissing : damagedTree.locate true ⟨"./data"⟩ = .error .missing := damagedTree_root.locate_join_missing hname rfl
  simp [FileTree.isDirectory, FileTree.locate?, hmissing, Except.toOption]

def damagedEngine : Engine := engine 4 damagedTree recordSettings 7

/-- Two files are done after the first scan, though one of them is no text, and still after the second, which finds no
directory. -/
theorem counters_consistent_damagedTree :
    detecting.progress.processed ≤ detecting.progress.total ∧
    ∃ rest rest' a b c d,
      Reaches 4 damagedTree ⟨"."⟩ recordSettings 7 detecting
        (.calling (.scan (recordJob ⟨"."⟩ recordSettings) :: rest) a) ∧
      damagedEngine.Steps (.calling (.scan (recordJob ⟨"."⟩ recordSettings) :: rest) a) (.calling rest b) ∧
      b.progress.processed = b.progress.total ∧ b.progress.total = 2 ∧
      damagedEngine.Steps (.calling rest b) (.calling (.scan (containerJob ⟨"."⟩ recordSettings) :: rest') c) ∧
      damagedEngine.Steps (.calling (.scan (containerJob ⟨"."⟩ recordSettings) :: rest') c) (.calling rest' d) ∧
      d.progress = b.progress := by
  have hstart : detecting.progress.processed ≤ detecting.progress.total := Nat.le_refl 0
  have hworks : damagedEngine.works 0 := Workers.size_pos _ 4
  obtain ⟨-, -, hscans, -⟩ := counters_consistent 4 damagedTree ⟨"."⟩ recordSettings 7 detecting hstart
  obtain ⟨rest, rest', htasks, hrest⟩ : ∃ rest rest',
      tasks damagedTree ⟨"."⟩ recordSettings =
        .enter (.phase .schemaExtraction) :: .scan (recordJob ⟨"."⟩ recordSettings) :: rest ∧
      rest = .leave :: .enter (.phase .mapExtraction) :: .scan (containerJob ⟨"."⟩ recordSettings) :: rest' :=
    ⟨_, _, if_pos damagedTree_exists, rfl⟩
  have hasked : Reaches 4 damagedTree ⟨"."⟩ recordSettings 7 detecting
      (.calling (.scan (recordJob ⟨"."⟩ recordSettings) :: rest)
        (detecting.act 7 (.enter (.phase .schemaExtraction)))) := by
    rw [Reaches, htasks]
    exact .single .enter
  obtain ⟨b, hrecords⟩ := Engine.exists_scan hworks (recordJob ⟨"."⟩ recordSettings) rest
    (detecting.act 7 (.enter (.phase .schemaExtraction)))
  have hbetween : damagedEngine.Steps (.calling rest b)
      (.calling (.scan (containerJob ⟨"."⟩ recordSettings) :: rest')
        ((b.act 7 .leave).act 7 (.enter (.phase .mapExtraction)))) := by
    rw [hrest]
    exact .head .leave (.single .enter)
  obtain ⟨d, hcontainers⟩ := Engine.exists_scan hworks (containerJob ⟨"."⟩ recordSettings) rest'
    ((b.act 7 .leave).act 7 (.enter (.phase .mapExtraction)))
  obtain ⟨hall, hcount⟩ := (hscans _ _ _ b hasked hrecords).1 damagedTree_isDirectory
  have hfound := Relation.ReflTransGen.trans hasked (hrecords.trans hbetween)
  have hkept := (hscans _ _ _ d hfound hcontainers).2 damagedTree_no_data
  have htwo : b.progress.total = 2 := hcount.trans (congrArg (·.files.length) damagedTree_walk)
  exact ⟨hstart, rest, rest', _, b, _, d, hasked, hrecords, hall, htwo, hbetween, hcontainers, hkept⟩

end Analysis

end Granularity
