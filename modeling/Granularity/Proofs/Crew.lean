import Granularity.Proofs.Scheduling
import Granularity.Proofs.Scopes

/-!
The workers of a stage, with what can be seen of them: the contexts of their threads and the counters that they share.
For each file a worker opens the scopes of the phase and of the file, counts the file and closes the scopes again,
whatever came out of the file. In every order of the workers' actions the counter stays within the number of files, and
at the end it has reached this number and all contexts are what they were.
-/

namespace Granularity

inductive Action where
  | enter (scope : Scope)
  | leave
  | count
  deriving DecidableEq

namespace Holder

def act (h : Holder) : Action → Holder
  | .enter scope => h.enter scope
  | .leave => h.leave
  | .count => h

def actAll (h : Holder) (actions : List Action) : Holder := actions.foldl act h

theorem actAll_append (h : Holder) (a b : List Action) : h.actAll (a ++ b) = (h.actAll a).actAll b :=
  List.foldl_append

end Holder

def Progress.act (p : Progress) : Action → Progress
  | .count => p.increment
  | _ => p

structure Activity where
  progress : Progress
  threads : Nat → Holder

def Activity.act (a : Activity) (w : Nat) (x : Action) : Activity :=
  ⟨a.progress.act x, Function.update a.threads w ((a.threads w).act x)⟩

namespace Action

/-- Counts inside the scopes, the first of which is the outermost. -/
def counting (scopes : List Scope) : List Action :=
  scopes.map .enter ++ .count :: List.replicate scopes.length .leave

theorem counting_cons (scope : Scope) (scopes : List Scope) :
    counting (scope :: scopes) = .enter scope :: (counting scopes ++ [.leave]) := by
  simp [counting, List.replicate_succ']

theorem returns_counting (h : Holder) (scopes : List Scope) : h.Returns (h.actAll (counting scopes)) := by
  induction scopes generalizing h with
  | nil => exact .refl h
  | cons scope scopes ih =>
    have hinside : (h.actAll (counting (scope :: scopes))) = ((h.enter scope).actAll (counting scopes)).leave := by
      rw [counting_cons]
      exact (h.enter scope).actAll_append (counting scopes) [.leave]
    rw [hinside]
    exact (ih (h.enter scope)).scope

theorem context_entered (h : Holder) (scopes : List Scope) :
    (h.actAll (scopes.map .enter)).context = h.context.inside scopes.reverse := by
  induction scopes using List.reverseRecOn with
  | nil => rfl
  | append_singleton scopes scope ih =>
    rw [List.map_append, Holder.actAll_append, List.reverse_append, List.reverse_singleton, List.singleton_append,
      Context.inside_cons, ← ih]
    rfl

theorem counting_split {scopes : List Scope} {done rest : List Action} (h : counting scopes = done ++ .count :: rest) :
    done = scopes.map .enter ∧ rest = List.replicate scopes.length .leave := by
  have hparts := (List.append_cons_inj_of_notMem (by simp) (by simp)).1 h
  exact ⟨hparts.1.symm, hparts.2.2.symm⟩

end Action

/-- The work of a stage: who takes part, the files, what is read out of a file, and the phase it is done in. -/
structure Work (α : Type) where
  works : Nat → Prop
  files : List Path
  scanOne : Path → FileScan α
  phase? : Option Phase

/-- What a worker does around the reading of a file, in the scopes of the phase, if there is one, and of the file. -/
def Work.scopes {α : Type} (k : Work α) (path : Path) : List Scope :=
  (k.phase?.map Scope.phase).toList ++ [.file path]

/-- What can be seen of the workers, what they read, and what each of them still has to do for its file. -/
structure Crew (α : Type) extends Activity where
  pool : Pool α
  todo : Nat → List Action

namespace Crew

variable {α : Type}

def start (a : Activity) : Crew α := ⟨a, .start, fun _ => []⟩

def take (c : Crew α) (w i : Nat) (actions : List Action) : Crew α :=
  { c with pool := c.pool.take w i, todo := Function.update c.todo w actions }

def act (c : Crew α) (w : Nat) (x : Action) (rest : List Action) : Crew α :=
  { c with toActivity := c.toActivity.act w x, todo := Function.update c.todo w rest }

def finish (c : Crew α) (w i : Nat) (s : FileScan α) : Crew α :=
  { c with pool := c.pool.finish w i s }

inductive Step (k : Work α) : Crew α → Crew α → Prop where
  | take {c : Crew α} {w i : Nat} {path : Path} : k.works w → c.pool.reading w = none → k.files[i]? = some path →
      i ∉ c.pool.taken → Step k c (c.take w i (Action.counting (k.scopes path)))
  | act {c : Crew α} {w : Nat} {x : Action} {rest : List Action} : c.todo w = x :: rest → Step k c (c.act w x rest)
  | finish {c : Crew α} {w i : Nat} {path : Path} : c.pool.reading w = some i → k.files[i]? = some path →
      c.todo w = [] → Step k c (c.finish w i (k.scanOne path))

abbrev Steps (k : Work α) : Crew α → Crew α → Prop := Relation.ReflTransGen (Step k)

/-- A worker without a file has closed what it opened; one with a file is somewhere in its actions. -/
structure Placed (k : Work α) (before : Activity) (c : Crew α) : Prop where
  pool : c.pool.Consistent k.files k.scanOne
  idle : ∀ w, c.pool.reading w = none → c.todo w = [] ∧ (before.threads w).Returns (c.threads w)
  busy : ∀ w i, c.pool.reading w = some i → ∃ path done h, k.files[i]? = some path ∧ (before.threads w).Returns h ∧
    Action.counting (k.scopes path) = done ++ c.todo w ∧ c.threads w = h.actAll done

variable {k : Work α} {before : Activity} {c c' : Crew α} {w i : Nat} {path : Path}

theorem start_placed : Placed k before (start before) where
  pool := Pool.start_consistent
  idle w _ := ⟨rfl, .refl _⟩
  busy w i h := by simp [start, Pool.start] at h

theorem take_placed (hc : Placed k before c) (hidle : c.pool.reading w = none) (hi : k.files[i]? = some path)
    (hnew : i ∉ c.pool.taken) : Placed k before (c.take w i (Action.counting (k.scopes path))) where
  pool := Pool.take_consistent hc.pool hidle (List.getElem?_eq_some_iff.1 hi).1 hnew
  idle v hv := by
    have hne : v ≠ w := fun heq => by simp [take, Pool.take, heq] at hv
    have hv : c.pool.reading v = none := by simpa [take, Pool.take, hne] using hv
    obtain ⟨htodo, hreturns⟩ := hc.idle v hv
    exact ⟨by simpa [take, hne] using htodo, hreturns⟩
  busy v j hv := by
    rcases Pool.take_reading hv with ⟨rfl, rfl⟩ | ⟨hne, hv⟩
    · exact ⟨path, [], c.threads v, hi, (hc.idle v hidle).2, by simp [take], rfl⟩
    · obtain ⟨path', done, h, hj, hreturns, hsplit, hthread⟩ := hc.busy v j hv
      exact ⟨path', done, h, hj, hreturns, by simpa [take, hne] using hsplit, hthread⟩

theorem act_placed (hc : Placed k before c) {x : Action} {rest : List Action} (hx : c.todo w = x :: rest) :
    Placed k before (c.act w x rest) where
  pool := hc.pool
  idle v hv := by
    have hne : v ≠ w := by
      rintro rfl
      have hnil := (hc.idle v hv).1
      simp [hx] at hnil
    simpa [act, Activity.act, hne] using hc.idle v hv
  busy v j hv := by
    obtain ⟨path, done, h, hj, hreturns, hsplit, hthread⟩ := hc.busy v j hv
    by_cases heq : v = w
    · subst heq
      refine ⟨path, done ++ [x], h, hj, hreturns, by simpa [act, hx] using hsplit, ?_⟩
      rw [Holder.actAll_append, ← hthread]
      simp [act, Activity.act, Holder.actAll]
    · refine ⟨path, done, h, hj, hreturns, by simpa [act, heq] using hsplit, ?_⟩
      simpa [act, Activity.act, heq] using hthread

theorem finish_placed (hc : Placed k before c) (hw : c.pool.reading w = some i) (hi : k.files[i]? = some path)
    (htodo : c.todo w = []) : Placed k before (c.finish w i (k.scanOne path)) where
  pool := Pool.finish_consistent hc.pool hw hi
  idle v hv := by
    by_cases heq : v = w
    · subst heq
      obtain ⟨path', done, h, -, hreturns, hsplit, hthread⟩ := hc.busy v i hw
      rw [htodo, List.append_nil] at hsplit
      refine ⟨htodo, hreturns.trans ?_⟩
      change h.Returns (c.threads v)
      rw [hthread, ← hsplit]
      exact Action.returns_counting h _
    · exact hc.idle v (by simpa [finish, Pool.finish, heq] using hv)
  busy v j hv := hc.busy v j (Pool.finish_reading hv).2

theorem step_placed (hc : Placed k before c) (h : Step k c c') : Placed k before c' := by
  cases h with
  | take _ hidle hi hnew => exact take_placed hc hidle hi hnew
  | act hx => exact act_placed hc hx
  | finish hw hi htodo => exact finish_placed hc hw hi htodo

/-- The files that are counted: those whose results are in, and of those being read the ones whose counting is done. -/
structure Counts (c : Crew α) (counted : Finset Nat) : Prop where
  card : counted.card = c.progress.processed
  taken : counted ⊆ c.pool.taken
  reading : ∀ w i, c.pool.reading w = some i → (i ∈ counted ↔ .count ∉ c.todo w)
  result : ∀ i s, c.pool.results i = some s → i ∈ counted

theorem start_counts (hzero : before.progress.processed = 0) : (start before : Crew α).Counts ∅ where
  card := hzero.symm
  taken := Finset.empty_subset _
  reading w i h := by simp [start, Pool.start] at h
  result i s h := by simp [start, Pool.start] at h

variable {counted : Finset Nat}

theorem take_counts (hc : c.Counts counted) (hnew : i ∉ c.pool.taken) :
    (c.take w i (Action.counting (k.scopes path))).Counts counted where
  card := hc.card
  taken := hc.taken.trans (Finset.subset_insert i c.pool.taken)
  reading v j hv := by
    rcases Pool.take_reading hv with ⟨rfl, rfl⟩ | ⟨hne, hv⟩
    · have hnot : j ∉ counted := fun hmem => hnew (hc.taken hmem)
      simp [take, Action.counting, hnot]
    · simpa [take, hne] using hc.reading v j hv
  result := hc.result

theorem act_counts (hc : c.Counts counted) (hp : Placed k before c) {x : Action} {rest : List Action}
    (hx : c.todo w = x :: rest) : ∃ counted, (c.act w x rest).Counts counted := by
  by_cases hcount : x = .count
  · subst hcount
    cases hw : c.pool.reading w with
    | none =>
      have hnil := (hp.idle w hw).1
      simp [hx] at hnil
    | some i =>
      have hnot : i ∉ counted := fun hmem => (hc.reading w i hw).1 hmem (by simp [hx])
      obtain ⟨path, done, h, -, -, hsplit, -⟩ := hp.busy w i hw
      have hrest : .count ∉ rest := by
        rw [hx] at hsplit
        simp [(Action.counting_split hsplit).2]
      refine ⟨insert i counted, ?_, ?_, fun v j hv => ?_, fun j s hs => Finset.mem_insert_of_mem (hc.result j s hs)⟩
      · rw [Finset.card_insert_of_notMem hnot, hc.card]
        rfl
      · exact Finset.insert_subset (hp.pool.reading w i hw).2.1 hc.taken
      · by_cases heq : v = w
        · subst heq
          obtain rfl : i = j := Option.some.inj (hw.symm.trans hv)
          simp [act, hrest]
        · have hne : j ≠ i := fun hji => heq (hp.pool.alone v w i (hji ▸ hv) hw)
          simpa [act, heq, hne] using hc.reading v j hv
  · refine ⟨counted, ?_, hc.taken, fun v j hv => ?_, hc.result⟩
    · cases x with
      | enter scope => exact hc.card
      | leave => exact hc.card
      | count => exact absurd rfl hcount
    · by_cases heq : v = w
      · subst heq
        simpa [act, hx, Ne.symm hcount] using hc.reading v j hv
      · simpa [act, heq] using hc.reading v j hv

theorem finish_counts (hc : c.Counts counted) {s : FileScan α} (hw : c.pool.reading w = some i)
    (htodo : c.todo w = []) : (c.finish w i s).Counts counted where
  card := hc.card
  taken := hc.taken
  reading v j hv := hc.reading v j (Pool.finish_reading hv).2
  result j s' hs := by
    by_cases hj : j = i
    · exact hj ▸ (hc.reading w i hw).2 (by simp [htodo])
    · exact hc.result j s' (by simpa [finish, Pool.finish, hj] using hs)

/-- What holds of the workers of a stage at every moment. -/
structure Sound (k : Work α) (before : Activity) (c : Crew α) : Prop where
  placed : Placed k before c
  total : c.progress.total = k.files.length
  counts : ∃ counted, c.Counts counted

theorem start_sound (h : before.progress = ⟨0, k.files.length⟩) : Sound k before (start before) :=
  ⟨start_placed, by simp [start, h], ∅, start_counts (by rw [h])⟩

theorem step_sound (hc : Sound k before c) (h : Step k c c') : Sound k before c' := by
  have hplaced := step_placed hc.placed h
  obtain ⟨counted, hcounts⟩ := hc.counts
  cases h with
  | take _ _ _ hnew => exact ⟨hplaced, hc.total, counted, take_counts hcounts hnew⟩
  | @act w x rest hx =>
    refine ⟨hplaced, ?_, act_counts hcounts hc.placed hx⟩
    cases x <;> exact hc.total
  | finish hw _ htodo => exact ⟨hplaced, hc.total, counted, finish_counts hcounts hw htodo⟩

theorem steps_sound (hc : Sound k before c) (h : Steps k c c') : Sound k before c' := by
  induction h with
  | refl => exact hc
  | tail _ h ih => exact step_sound ih h

theorem taken_subset (hp : c.pool.Consistent k.files k.scanOne) : c.pool.taken ⊆ Finset.range k.files.length := by
  intro i hi
  rw [Finset.mem_range]
  cases hr : c.pool.results i with
  | some s =>
    obtain ⟨path, hpath, -⟩ := Option.map_eq_some_iff.1 (hp.result i s hr).2
    exact (List.getElem?_eq_some_iff.1 hpath).1
  | none =>
    obtain ⟨w, hw⟩ := hp.pending i hi hr
    exact (hp.reading w i hw).1

theorem Sound.processed_le (hc : Sound k before c) : c.progress.processed ≤ k.files.length := by
  obtain ⟨counted, hcounts⟩ := hc.counts
  rw [← hcounts.card, ← Finset.card_range k.files.length]
  exact Finset.card_le_card (hcounts.taken.trans (taken_subset hc.placed.pool))

theorem Sound.progress_eq (hc : Sound k before c) (hf : c.pool.Finished k.files.length) :
    c.progress = ⟨k.files.length, k.files.length⟩ := by
  obtain ⟨counted, hcounts⟩ := hc.counts
  have hall : Finset.range k.files.length ⊆ counted := by
    intro i hi
    obtain ⟨s, hs⟩ := Option.isSome_iff_exists.1 (hf i (Finset.mem_range.1 hi))
    exact hcounts.result i s hs
  have hle := Finset.card_le_card hall
  rw [Finset.card_range, hcounts.card] at hle
  have hprocessed := Nat.le_antisymm hc.processed_le hle
  calc c.progress = ⟨c.progress.processed, c.progress.total⟩ := rfl
    _ = ⟨k.files.length, k.files.length⟩ := by rw [hprocessed, hc.total]

theorem Sound.returns (hc : Sound k before c) (hf : c.pool.Finished k.files.length) (w : Nat) :
    (before.threads w).Returns (c.threads w) := by
  cases hw : c.pool.reading w with
  | none => exact (hc.placed.idle w hw).2
  | some i =>
    obtain ⟨hi, -, hnone⟩ := hc.placed.pool.reading w i hw
    have hsome := hf i hi
    simp [hnone] at hsome

theorem Sound.context_counting (hc : Sound k before c) (hw : c.pool.reading w = some i) (hi : k.files[i]? = some path)
    {rest : List Action} (hx : c.todo w = .count :: rest) :
    (c.threads w).context = (before.threads w).context.inside (k.scopes path).reverse := by
  obtain ⟨path', done, h, hi', hreturns, hsplit, hthread⟩ := hc.placed.busy w i hw
  obtain rfl : path = path' := Option.some.inj (hi.symm.trans hi')
  rw [hx] at hsplit
  rw [hthread, (Action.counting_split hsplit).1, Action.context_entered, hreturns.thread.context_eq]

theorem exists_acts (c : Crew α) (w : Nat) : ∃ c', Steps k c c' ∧ c'.pool = c.pool ∧ c'.todo w = [] := by
  induction hx : c.todo w generalizing c with
  | nil => exact ⟨c, .refl, rfl, hx⟩
  | cons x rest ih =>
    obtain ⟨c', hsteps, hpool, htodo⟩ := ih (c.act w x rest) (by simp [act])
    exact ⟨c', .head (.act hx) hsteps, hpool, htodo⟩

theorem exists_file (hw : k.works w) (hidle : c.pool.reading w = none) (hi : k.files[i]? = some path)
    (hnew : i ∉ c.pool.taken) :
    ∃ c', Steps k c c' ∧ c'.pool = (c.pool.take w i).finish w i (k.scanOne path) := by
  obtain ⟨c', hsteps, hpool, htodo⟩ := exists_acts (k := k) (c.take w i (Action.counting (k.scopes path))) w
  have hreading : c'.pool.reading w = some i := by simp [hpool, take, Pool.take]
  refine ⟨_, (Relation.ReflTransGen.head (.take hw hidle hi hnew) hsteps).tail (.finish hreading hi htodo), ?_⟩
  simp [finish, hpool, take]

theorem exists_files (hw : k.works w) (a : Activity) {n : Nat} (hn : n ≤ k.files.length) : ∃ c, Steps k (start a) c ∧
    c.pool.reading w = none ∧ (∀ i ∈ c.pool.taken, i < n) ∧ c.pool.Finished n := by
  induction n with
  | zero =>
    refine ⟨start a, .refl, rfl, fun i hi => ?_, fun i hi => absurd hi (Nat.not_lt_zero i)⟩
    simp [start, Pool.start] at hi
  | succ n ih =>
    obtain ⟨c, hsteps, hidle, htaken, hf⟩ := ih (Nat.le_of_succ_le hn)
    have hnew : n ∉ c.pool.taken := fun hmem => Nat.lt_irrefl n (htaken n hmem)
    obtain ⟨c', hsteps', hpool⟩ := exists_file hw hidle (List.getElem?_eq_getElem hn) hnew
    refine ⟨c', hsteps.trans hsteps', ?_, fun i hi => ?_, fun i hi => ?_⟩
    · simp [hpool, Pool.finish]
    · rw [hpool] at hi
      rcases Finset.mem_insert.1 hi with rfl | hi
      · exact Nat.lt_succ_self i
      · exact Nat.lt_succ_of_lt (htaken i hi)
    · by_cases heq : i = n
      · simp [hpool, Pool.finish, heq]
      · simpa [hpool, Pool.finish, Pool.take, heq] using hf i (by omega)

theorem exists_finished (hw : k.works w) (a : Activity) :
    ∃ c, Steps k (start a) c ∧ c.pool.Finished k.files.length := by
  obtain ⟨c, hsteps, -, -, hf⟩ := exists_files hw a (Nat.le_refl k.files.length)
  exact ⟨c, hsteps, hf⟩

end Crew

end Granularity
