import Granularity.Proofs.Stages
import Mathlib.Data.Finset.Card
import Mathlib.Data.PNat.Defs
import Mathlib.Logic.Function.Basic
import Mathlib.Logic.Relation
import Mathlib.Order.Interval.Finset.Nat

/-!
Scanning the files of a stage with a pool of workers. A worker takes a file that nobody took yet, or hands
in the result of the file it reads; results are collected by the number of the file. Every order of
these steps that ends leaves the results of reading the files one after the other.
-/

namespace Granularity

/-- The file each worker reads, the files taken so far and the results handed in, files by number. -/
structure Pool (α : Type) where
  reading : Nat → Option Nat
  taken : Finset Nat
  results : Nat → Option (FileScan α)

namespace Pool

variable {α : Type}

def start : Pool α := ⟨fun _ => none, ∅, fun _ => none⟩

def take (p : Pool α) (w i : Nat) : Pool α :=
  { p with reading := Function.update p.reading w (some i), taken := insert i p.taken }

def finish (p : Pool α) (w i : Nat) (s : FileScan α) : Pool α :=
  { p with reading := Function.update p.reading w none, results := Function.update p.results i (some s) }

inductive Step (workers : Nat) (files : List Path) (scanOne : Path → FileScan α) : Pool α → Pool α → Prop where
  | take {p : Pool α} {w i : Nat} : w < workers → p.reading w = none → i < files.length → i ∉ p.taken →
      Step workers files scanOne p (p.take w i)
  | finish {p : Pool α} {w i : Nat} {path : Path} : p.reading w = some i → files[i]? = some path →
      Step workers files scanOne p (p.finish w i (scanOne path))

abbrev Steps (workers : Nat) (files : List Path) (scanOne : Path → FileScan α) : Pool α → Pool α → Prop :=
  Relation.ReflTransGen (Step workers files scanOne)

def Finished (n : Nat) (p : Pool α) : Prop := ∀ i < n, (p.results i).isSome = true

def collected (n : Nat) (p : Pool α) : List (FileScan α) := (List.range n).filterMap p.results

/-- Results belong to their files, and a file is with one worker from when it is taken until its result
is in. -/
structure Consistent (files : List Path) (scanOne : Path → FileScan α) (p : Pool α) : Prop where
  result : ∀ i s, p.results i = some s → i ∈ p.taken ∧ files[i]?.map scanOne = some s
  reading : ∀ w i, p.reading w = some i → i < files.length ∧ i ∈ p.taken ∧ p.results i = none
  alone : ∀ v w i, p.reading v = some i → p.reading w = some i → v = w
  pending : ∀ i ∈ p.taken, p.results i = none → ∃ w, p.reading w = some i

variable {workers : Nat} {files : List Path} {scanOne : Path → FileScan α} {p q : Pool α}

theorem start_consistent : Consistent files scanOne start where
  result i s h := by simp [start] at h
  reading w i h := by simp [start] at h
  alone v w i h := by simp [start] at h
  pending i h := by simp [start] at h

theorem take_reading {w i v j : Nat} (h : (p.take w i).reading v = some j) :
    v = w ∧ j = i ∨ v ≠ w ∧ p.reading v = some j := by
  by_cases hv : v = w
  · subst hv
    exact Or.inl ⟨rfl, by simpa [take, eq_comm] using h⟩
  · exact Or.inr ⟨hv, by simpa [take, hv] using h⟩

theorem finish_reading {w i v j : Nat} {s : FileScan α} (h : (p.finish w i s).reading v = some j) :
    v ≠ w ∧ p.reading v = some j := by
  by_cases hv : v = w
  · subst hv
    simp [finish] at h
  · exact ⟨hv, by simpa [finish, hv] using h⟩

theorem take_consistent (hp : Consistent files scanOne p) {w i : Nat} (hw : p.reading w = none)
    (hi : i < files.length) (hnew : i ∉ p.taken) : Consistent files scanOne (p.take w i) where
  result j s h := by
    obtain ⟨hj, hs⟩ := hp.result j s h
    exact ⟨Finset.mem_insert_of_mem hj, hs⟩
  reading v j h := by
    rcases take_reading h with ⟨-, rfl⟩ | ⟨-, h⟩
    · refine ⟨hi, Finset.mem_insert_self _ _, ?_⟩
      cases hr : p.results j with
      | none => exact hr
      | some s => exact absurd (hp.result j s hr).1 hnew
    · obtain ⟨hj, ht, hr⟩ := hp.reading v j h
      exact ⟨hj, Finset.mem_insert_of_mem ht, hr⟩
  alone u v j hu hv := by
    rcases take_reading hu with ⟨rfl, hj⟩ | ⟨-, hu'⟩
    · rcases take_reading hv with ⟨rfl, -⟩ | ⟨-, hv'⟩
      · rfl
      · exact absurd (hj ▸ (hp.reading v j hv').2.1) hnew
    · rcases take_reading hv with ⟨rfl, hj⟩ | ⟨-, hv'⟩
      · exact absurd (hj ▸ (hp.reading u j hu').2.1) hnew
      · exact hp.alone u v j hu' hv'
  pending j hj hr := by
    rcases Finset.mem_insert.1 hj with rfl | hj
    · exact ⟨w, by simp [take]⟩
    · obtain ⟨v, hv⟩ := hp.pending j hj hr
      have hne : v ≠ w := fun h => by simp [h, hw] at hv
      exact ⟨v, by simpa [take, hne] using hv⟩

theorem finish_consistent (hp : Consistent files scanOne p) {w i : Nat} {path : Path}
    (hw : p.reading w = some i) (hi : files[i]? = some path) :
    Consistent files scanOne (p.finish w i (scanOne path)) where
  result j s h := by
    by_cases hj : j = i
    · subst hj
      have hs : scanOne path = s := by simpa [finish] using h
      exact ⟨(hp.reading w j hw).2.1, by simp [hi, hs]⟩
    · exact hp.result j s (by simpa [finish, hj] using h)
  reading v j h := by
    obtain ⟨hv, h⟩ := finish_reading h
    obtain ⟨hj, ht, hr⟩ := hp.reading v j h
    have hne : j ≠ i := fun he => hv (hp.alone v w i (he ▸ h) hw)
    exact ⟨hj, ht, by simpa [finish, hne] using hr⟩
  alone u v j hu hv := hp.alone u v j (finish_reading hu).2 (finish_reading hv).2
  pending j hj hr := by
    have hne : j ≠ i := fun he => by simp [finish, he] at hr
    obtain ⟨v, hv⟩ := hp.pending j hj (by simpa [finish, hne] using hr)
    have hvw : v ≠ w := fun he => hne (by simpa [he, hw, eq_comm] using hv)
    exact ⟨v, by simpa [finish, hvw] using hv⟩

theorem step_consistent (hp : Consistent files scanOne p) (h : Step workers files scanOne p q) :
    Consistent files scanOne q := by
  cases h with
  | take hw hidle hi hnew => exact take_consistent hp hidle hi hnew
  | finish hw hi => exact finish_consistent hp hw hi

theorem steps_consistent (hp : Consistent files scanOne p) (h : Steps workers files scanOne p q) :
    Consistent files scanOne q := by
  induction h with
  | refl => exact hp
  | tail _ h ih => exact step_consistent ih h

theorem filterMap_range_getElem? {β : Type} (l : List β) : (List.range l.length).filterMap (l[·]?) = l := by
  induction l with
  | nil => rfl
  | cons a l ih =>
    rw [List.length_cons, List.range_succ_eq_map, List.filterMap_cons, List.filterMap_map]
    simpa [Function.comp_def] using ih

theorem collected_eq (hp : Consistent files scanOne p) (hf : p.Finished files.length) :
    p.collected files.length = files.map scanOne := by
  have hall : ∀ i ∈ List.range files.length, p.results i = (files.map scanOne)[i]? := by
    intro i hi
    obtain ⟨s, hs⟩ := Option.isSome_iff_exists.1 (hf i (List.mem_range.1 hi))
    rw [hs, List.getElem?_map, (hp.result i s hs).2]
  rw [collected, List.filterMap_congr hall]
  simpa using filterMap_range_getElem? (files.map scanOne)

def left (n : Nat) (p : Pool α) : Nat :=
  ((Finset.range n).filter (· ∉ p.taken)).card + ((Finset.range n).filter fun i => (p.results i).isNone).card

theorem left_take_lt {n w i : Nat} (hi : i < n) (hnew : i ∉ p.taken) : (p.take w i).left n < p.left n := by
  have h : ((Finset.range n).filter (· ∉ (p.take w i).taken)).card <
      ((Finset.range n).filter (· ∉ p.taken)).card := by
    apply Finset.card_lt_card
    refine ⟨?_, fun h => ?_⟩
    · apply Finset.monotone_filter_right
      intro j _ hj
      exact fun hm => hj (Finset.mem_insert_of_mem hm)
    · have hm := h (Finset.mem_filter.2 ⟨Finset.mem_range.2 hi, hnew⟩)
      exact (Finset.mem_filter.1 hm).2 (Finset.mem_insert_self _ _)
  exact Nat.add_lt_add_right h _

theorem left_finish_lt {n w i : Nat} {s : FileScan α} (hi : i < n) (hnone : p.results i = none) :
    (p.finish w i s).left n < p.left n := by
  have h : ((Finset.range n).filter fun j => ((p.finish w i s).results j).isNone).card <
      ((Finset.range n).filter fun j => (p.results j).isNone).card := by
    apply Finset.card_lt_card
    refine ⟨?_, fun h => ?_⟩
    · apply Finset.monotone_filter_right
      intro j _ hj
      by_cases he : j = i
      · simp [he, hnone]
      · simpa [finish, he] using hj
    · have hm := h (Finset.mem_filter.2 ⟨Finset.mem_range.2 hi, by simp [hnone]⟩)
      simpa [finish] using (Finset.mem_filter.1 hm).2
  exact Nat.add_lt_add_left h _

theorem left_step_lt (hp : Consistent files scanOne p) (h : Step workers files scanOne p q) :
    q.left files.length < p.left files.length := by
  cases h with
  | take hw hidle hi hnew => exact left_take_lt hi hnew
  | @finish w i path hw hi =>
    obtain ⟨hlt, -, hnone⟩ := hp.reading w i hw
    exact left_finish_lt hlt hnone

theorem exists_step (hworkers : 0 < workers) (hp : Consistent files scanOne p)
    (hf : ¬ p.Finished files.length) : ∃ q, Step workers files scanOne p q := by
  have hfinish (w i : Nat) (hw : p.reading w = some i) : ∃ q, Step workers files scanOne p q := by
    have hi := (hp.reading w i hw).1
    exact ⟨_, .finish hw (List.getElem?_eq_getElem hi)⟩
  obtain ⟨i, hi, hnone⟩ : ∃ i < files.length, p.results i = none := by
    simpa [Finished] using hf
  by_cases ht : i ∈ p.taken
  · obtain ⟨w, hw⟩ := hp.pending i ht hnone
    exact hfinish w i hw
  · cases h0 : p.reading 0 with
    | none => exact ⟨_, .take hworkers h0 hi ht⟩
    | some j => exact hfinish 0 j h0

theorem exists_finished (hworkers : 0 < workers) (hp : Consistent files scanOne p) :
    ∃ q, Steps workers files scanOne p q ∧ q.Finished files.length := by
  induction hn : p.left files.length using Nat.strong_induction_on generalizing p with
  | _ n ih =>
    by_cases hf : p.Finished files.length
    · exact ⟨p, .refl, hf⟩
    · obtain ⟨q, hq⟩ := exists_step hworkers hp hf
      have hlt : q.left files.length < n := hn ▸ left_step_lt hp hq
      obtain ⟨r, hr, hrf⟩ := ih _ hlt (step_consistent hp hq) rfl
      exact ⟨r, .head hq hr, hrf⟩

end Pool

/-- The number of workers: as many as were asked for, otherwise one for each core. -/
def Workers.size (w : Workers) (cores : ℕ+) : Nat := w.count?.getD cores

def Workers.sequential : Workers := ⟨false, none⟩

theorem Workers.size_pos (w : Workers) (cores : ℕ+) : 0 < w.size cores := by
  unfold Workers.size Workers.count?
  cases w.jobs with
  | none => simp
  | some n =>
    by_cases hn : 0 < n
    · simp [Option.filter, hn]
    · simp [Option.filter, hn]

/-- What a stage may find: with workers, what some finished run of them collects; without workers or
without a directory, what a scan of one file after the other finds. In which order workers write to the
log is left open. -/
inductive StageRun {α : Type} (w : Workers) (cores : ℕ+) (t : FileTree) (target : Target)
    (read : FileReader α) (out : StageScan α) : Prop where
  | inOrder : w.enabled = false ∨ t.isDirectory target.directory = false →
      out.SameFindings (scan t target read) → StageRun w cores t target read out
  | pooled {p : Pool α} : w.enabled = true → t.isDirectory target.directory = true →
      Pool.Steps (w.size cores) (t.walk target.directory target.extensions).files
        (scanFile t target.root read) .start p →
      p.Finished (t.walk target.directory target.extensions).files.length →
      out.SameFindings (.collect (t.walk target.directory target.extensions)
        (p.collected (t.walk target.directory target.extensions).files.length)) →
      StageRun w cores t target read out

theorem stageRun_iff {α : Type} (w : Workers) (cores : ℕ+) (t : FileTree) (target : Target)
    (read : FileReader α) (out : StageScan α) :
    StageRun w cores t target read out ↔ out.SameFindings (scan t target read) := by
  constructor
  · intro h
    cases h with
    | inOrder _ h => exact h
    | @pooled p _ hd hsteps hf h =>
      have hp := Pool.steps_consistent Pool.start_consistent hsteps
      rw [Pool.collected_eq hp hf] at h
      rw [scan_of_directory read hd]
      exact h
  · intro h
    by_cases hseq : w.enabled = false ∨ t.isDirectory target.directory = false
    · exact .inOrder hseq h
    · obtain ⟨he, hd⟩ : w.enabled = true ∧ t.isDirectory target.directory = true := by simpa using hseq
      let files := (t.walk target.directory target.extensions).files
      obtain ⟨p, hsteps, hf⟩ : ∃ p, Pool.Steps (w.size cores) files (scanFile t target.root read) .start p ∧
          p.Finished files.length := Pool.exists_finished (w.size_pos cores) Pool.start_consistent
      have hp := Pool.steps_consistent Pool.start_consistent hsteps
      refine .pooled he hd hsteps hf ?_
      rw [Pool.collected_eq hp hf, ← scan_of_directory read hd]
      exact h

namespace Analysis

/-- What an analysis may give when each stage runs on its workers, one stage after the other. -/
inductive Yields (cores : ℕ+) (t : FileTree) (root : Path) (s : Settings) :
    Except AnalysisError Results → Prop where
  | missing : t.pathExists root = false → Yields cores t root s (.error (.rootNotFound root))
  | found {st : Stages} : t.pathExists root = true →
      StageRun s.workers cores t (recordTarget root s) (schemaReader s.conventions) st.schemas →
      StageRun s.workers cores t (containerTarget root s) (Container.read s.conventions) st.containers →
      StageRun s.workers cores t (containerTarget root s) accessorReader st.accessors →
      StageRun s.workers cores t (validationTarget root s) (warningReader s.conventions.warningCall) st.warnings →
      Yields cores t root s (.ok (st.results root s))

/-- Every order in which the workers of the stages take their files and hand in their results gives the
results of the run without workers, whatever their number; and some order gives them. -/
theorem yields_iff_sequential (cores : ℕ+) (t : FileTree) (root : Path) (s : Settings) (w : Workers)
    (r : Except AnalysisError Results) :
    Yields cores t root { s with workers := w } r ↔
      r = (run t root { s with workers := .sequential }).map Outcome.results := by
  rw [run_results]
  constructor
  · intro h
    cases h with
    | missing hr => simp [hr]
    | found hr h₁ h₂ h₃ h₄ =>
      rw [if_pos hr]
      exact congrArg Except.ok (results_congr ((stageRun_iff ..).1 h₁) ((stageRun_iff ..).1 h₂)
        ((stageRun_iff ..).1 h₃) ((stageRun_iff ..).1 h₄) root _)
  · rintro rfl
    split
    · next hr =>
      exact .found hr ((stageRun_iff ..).2 ⟨rfl, rfl⟩) ((stageRun_iff ..).2 ⟨rfl, rfl⟩)
        ((stageRun_iff ..).2 ⟨rfl, rfl⟩) ((stageRun_iff ..).2 ⟨rfl, rfl⟩)
    · next hr => exact .missing (by simpa using hr)

end Analysis

end Granularity
