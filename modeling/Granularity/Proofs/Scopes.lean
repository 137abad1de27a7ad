import Granularity.Activity.Context
import Mathlib.Data.List.Infix

/-!
Scopes that are closed in the reverse order of their opening. Closing a scope brings back a whole context, not only what
the scope had set; yet as long as the innermost scope is closed first, each field is what the innermost open scope that
sets it says, and what a scope changed is gone when it is closed.
-/

namespace Granularity

inductive Move where
  | enter (scope : Scope)
  | leave (number : Nat)
  deriving DecidableEq

namespace Thread

def move (t : Thread) : Move → Thread
  | .enter scope => t.enter scope
  | .leave number => t.leave number

def moveAll (t : Thread) (moves : List Move) : Thread := moves.foldl move t

theorem moveAll_append (t : Thread) (a b : List Move) : t.moveAll (a ++ b) = (t.moveAll a).moveAll b :=
  List.foldl_append

theorem leave_of_saved {t : Thread} {number : Nat} {c : Context} (h : t.saved[number]? = some (some c)) :
    t.leave number = ⟨c, t.saved.set number none⟩ := by
  rw [leave, h]

theorem saved_leave (t : Thread) (number : Nat) :
    (t.leave number).saved = t.saved ∨ (t.leave number).saved = t.saved.set number none := by
  unfold leave
  split
  · exact Or.inr rfl
  · exact Or.inl rfl

theorem saved_moveAll {t : Thread} {number : Nat} {c : Option Context} (moves : List Move)
    (h : t.saved[number]? = some c ∨ t.saved[number]? = some none) :
    (t.moveAll moves).saved[number]? = some c ∨ (t.moveAll moves).saved[number]? = some none := by
  induction moves generalizing t with
  | nil => exact h
  | cons m moves ih =>
    apply ih
    have hlt : number < t.saved.length := by
      rcases h with h | h <;> exact (List.getElem?_eq_some_iff.1 h).1
    cases m with
    | enter scope =>
      rw [move, enter, List.getElem?_append_left hlt]
      exact h
    | leave k =>
      rcases t.saved_leave k with hsaved | hsaved
      · rw [move, hsaved]
        exact h
      · rw [move, hsaved]
        by_cases hk : k = number
        · exact Or.inr (by rw [hk, List.getElem?_set_self hlt])
        · rwa [List.getElem?_set_ne hk]

end Thread

namespace Scope

def phase? : Scope → Option Phase
  | .phase p => some p
  | _ => none

def file? : Scope → Option Path
  | .file path => some path
  | _ => none

def detector? : Scope → Option String
  | .detector name => some name
  | _ => none

end Scope

/-- Each field as the first of the scopes that sets it says, or else as it is in the context. -/
def Context.inside (c : Context) (scopes : List Scope) : Context where
  phase := (scopes.findSome? Scope.phase?).or c.phase
  file := (scopes.findSome? Scope.file?).or c.file
  detector := (scopes.findSome? Scope.detector?).or c.detector

theorem Context.inside_cons (c : Context) (scope : Scope) (outer : List Scope) :
    c.inside (scope :: outer) = (c.inside outer).enter scope := by
  cases scope <;> rfl

/-- The number of the next scope, and the open scopes by number, the innermost first. -/
structure Nesting where
  next : Nat
  opened : List (Nat × Scope)

namespace Nesting

/-- Only the innermost open scope can be closed. -/
def move? (n : Nesting) : Move → Option Nesting
  | .enter scope => some ⟨n.next + 1, (n.next, scope) :: n.opened⟩
  | .leave number =>
    match n.opened with
    | [] => none
    | (innermost, _) :: outer => if number = innermost then some ⟨n.next, outer⟩ else none

def moveAll? (n : Nesting) : List Move → Option Nesting
  | [] => some n
  | m :: moves => (n.move? m).bind (·.moveAll? moves)

variable {n n' : Nesting} {m : Move} {moves : List Move}

theorem move?_leave {number : Nat} (h : n.move? (.leave number) = some n') :
    ∃ scope, n.opened = (number, scope) :: n'.opened ∧ n'.next = n.next := by
  cases hopened : n.opened with
  | nil => simp [move?, hopened] at h
  | cons innermost outer =>
    simp only [move?, hopened] at h
    obtain ⟨rfl, heq⟩ := Option.ite_none_right_eq_some.1 h
    cases heq
    exact ⟨innermost.2, rfl, rfl⟩

theorem moveAll?_append (n : Nesting) (a b : List Move) :
    n.moveAll? (a ++ b) = (n.moveAll? a).bind (·.moveAll? b) := by
  induction a generalizing n with
  | nil => rfl
  | cons m a ih =>
    rw [List.cons_append, moveAll?, moveAll?, Option.bind_assoc]
    exact congrArg _ (funext fun n' => ih n')

theorem move?_outer (outer : List (Nat × Scope)) (h : n.move? m = some n') :
    (⟨n.next, n.opened ++ outer⟩ : Nesting).move? m = some ⟨n'.next, n'.opened ++ outer⟩ := by
  cases m with
  | enter scope =>
    cases h
    rfl
  | leave number =>
    obtain ⟨scope, hopened, hnext⟩ := move?_leave h
    simp [move?, hopened, hnext]

theorem moveAll?_outer (outer : List (Nat × Scope)) (h : n.moveAll? moves = some n') :
    (⟨n.next, n.opened ++ outer⟩ : Nesting).moveAll? moves = some ⟨n'.next, n'.opened ++ outer⟩ := by
  induction moves generalizing n with
  | nil =>
    cases h
    rfl
  | cons m moves ih =>
    obtain ⟨n₁, hm, hmoves⟩ := Option.bind_eq_some_iff.1 h
    rw [moveAll?, move?_outer outer hm]
    exact ih hmoves

/-- The open scopes make up the context of the thread, and each of them saved what those outside it make up. -/
structure Describes (n : Nesting) (base : Context) (t : Thread) : Prop where
  next : n.next = t.saved.length
  context : t.context = base.inside (n.opened.map Prod.snd)
  saved : ∀ number scope outer, (number, scope) :: outer <:+ n.opened →
    t.saved[number]? = some (some (base.inside (outer.map Prod.snd)))
  falling : n.opened.Pairwise fun inner outer => outer.1 < inner.1

variable {base : Context} {t : Thread}

theorem Describes.lt_of_mem (h : n.Describes base t) {number : Nat} {scope : Scope}
    (hmem : (number, scope) ∈ n.opened) : number < t.saved.length := by
  obtain ⟨inner, outer, hopened⟩ := List.append_of_mem hmem
  exact (List.getElem?_eq_some_iff.1 (h.saved number scope outer ⟨inner, hopened.symm⟩)).1

theorem Describes.enter (h : n.Describes base t) (scope : Scope) :
    (⟨n.next + 1, (n.next, scope) :: n.opened⟩ : Nesting).Describes base (t.enter scope) where
  next := by simp [Thread.enter, h.next]
  context := by rw [List.map_cons, Context.inside_cons, ← h.context, Thread.enter]
  saved number scope' outer hsuffix := by
    rw [Thread.enter]
    rcases List.suffix_cons_iff.1 hsuffix with heq | hsuffix
    · cases heq
      rw [h.next, List.getElem?_concat_length, h.context]
    · have hlt := h.lt_of_mem (hsuffix.subset List.mem_cons_self)
      rw [List.getElem?_append_left hlt]
      exact h.saved number scope' outer hsuffix
  falling := by
    refine List.pairwise_cons.2 ⟨fun outer hmem => ?_, h.falling⟩
    rw [h.next]
    exact h.lt_of_mem hmem

theorem Describes.leave (h : n.Describes base t) {number : Nat} {scope : Scope} (hn : n'.next = n.next)
    (hopened : n.opened = (number, scope) :: n'.opened) : n'.Describes base (t.leave number) := by
  have hfalling := List.pairwise_cons.1 (hopened ▸ h.falling)
  rw [Thread.leave_of_saved (h.saved number scope n'.opened ⟨[], hopened.symm⟩)]
  refine ⟨?_, rfl, fun number' scope' outer hsuffix => ?_, hfalling.2⟩
  · rw [hn, h.next, List.length_set]
  · have hlt : number' < number := hfalling.1 _ (hsuffix.subset List.mem_cons_self)
    rw [List.getElem?_set_ne (Nat.ne_of_gt hlt)]
    exact h.saved number' scope' outer (hopened ▸ hsuffix.trans (List.suffix_cons _ _))

theorem move_describes (h : n.Describes base t) (hm : n.move? m = some n') : n'.Describes base (t.move m) := by
  cases m with
  | enter scope =>
    cases hm
    exact h.enter scope
  | leave number =>
    obtain ⟨scope, hopened, hnext⟩ := move?_leave hm
    exact h.leave hnext hopened

theorem moveAll_describes (h : n.Describes base t) (hm : n.moveAll? moves = some n') :
    n'.Describes base (t.moveAll moves) := by
  induction moves generalizing n t with
  | nil =>
    cases hm
    exact h
  | cons m moves ih =>
    obtain ⟨n₁, hm₁, hmoves⟩ := Option.bind_eq_some_iff.1 hm
    exact ih (move_describes h hm₁) hmoves

end Nesting

namespace Thread

def nesting (t : Thread) : Nesting := ⟨t.saved.length, []⟩

theorem nesting_describes (t : Thread) : t.nesting.Describes t.context t where
  next := rfl
  context := rfl
  saved _ _ _ h := absurd (List.suffix_nil.1 h) (by simp)
  falling := .nil

/-- Each scope that is closed is the innermost one that the program has open. -/
def WellNested (t : Thread) (moves : List Move) : Prop := (t.nesting.moveAll? moves).isSome = true

/-- The scopes of a well-nested program that are open at its end, the innermost first. -/
def opened (t : Thread) (moves : List Move) : List Scope :=
  ((t.nesting.moveAll? moves).elim [] Nesting.opened).map Prod.snd

variable {t t' t'' : Thread} {moves : List Move}

theorem WellNested.of_isPrefix {point : List Move} (h : t.WellNested moves) (hp : point <+: moves) :
    t.WellNested point := by
  obtain ⟨rest, rfl⟩ := hp
  rw [WellNested, Nesting.moveAll?_append] at h
  exact Option.isSome_of_isSome_bind h

theorem WellNested.context_eq (h : t.WellNested moves) :
    (t.moveAll moves).context = t.context.inside (t.opened moves) := by
  obtain ⟨n, hn⟩ := Option.isSome_iff_exists.1 h
  rw [opened, hn]
  exact (Nesting.moveAll_describes t.nesting_describes hn).context

theorem WellNested.context_closed {before inside : List Move} {scope : Scope}
    (h : t.WellNested (before ++ .enter scope :: inside ++ [.leave (t.moveAll before).saved.length])) :
    (t.moveAll (before ++ .enter scope :: inside ++ [.leave (t.moveAll before).saved.length])).context =
      (t.moveAll before).context := by
  let number := (t.moveAll before).saved.length
  let within := t.moveAll (before ++ .enter scope :: inside)
  obtain ⟨n, hn⟩ := Option.isSome_iff_exists.1 (h.of_isPrefix (List.prefix_append _ _))
  obtain ⟨n', hleave⟩ : ∃ n', n.move? (.leave number) = some n' := by
    rw [WellNested, Nesting.moveAll?_append, hn] at h
    exact Option.isSome_iff_exists.1 (Option.isSome_of_isSome_bind h)
  -- the scope is still open, so it has what it saved at its opening
  obtain ⟨scope', hopened, -⟩ := Nesting.move?_leave hleave
  have hopen := (Nesting.moveAll_describes t.nesting_describes hn).saved number scope' n'.opened ⟨[], hopened.symm⟩
  have hsaved : within.saved[number]? = some (some (t.moveAll before).context) := by
    have hentered : ((t.moveAll before).enter scope).saved[number]? = some (some (t.moveAll before).context) := by
      rw [enter, List.getElem?_concat_length]
    have hwithin : within = ((t.moveAll before).enter scope).moveAll inside := moveAll_append t before _
    rcases saved_moveAll inside (Or.inl hentered) with hsaved | hsaved
    · rw [hwithin, hsaved]
    · rw [← hwithin, hopen] at hsaved
      cases hsaved
  rw [moveAll_append]
  change (within.leave number).context = _
  rw [leave_of_saved hsaved]

/-- The thread opened scopes and closed them all again, each before those outside it. -/
def Returns (t t' : Thread) : Prop :=
  ∃ moves, t.nesting.moveAll? moves = some t'.nesting ∧ t' = t.moveAll moves

theorem Returns.refl (t : Thread) : t.Returns t := ⟨[], rfl, rfl⟩

theorem Returns.trans (h : t.Returns t') (h' : t'.Returns t'') : t.Returns t'' := by
  obtain ⟨moves, hn, ht⟩ := h
  obtain ⟨moves', hn', ht'⟩ := h'
  refine ⟨moves ++ moves', ?_, by rw [moveAll_append, ← ht, ← ht']⟩
  rw [Nesting.moveAll?_append, hn]
  exact hn'

theorem Returns.scope {scope : Scope} (h : (t.enter scope).Returns t') : t.Returns (t'.leave t.saved.length) := by
  obtain ⟨moves, hn, ht⟩ := h
  have hlength : (t'.leave t.saved.length).saved.length = t'.saved.length := by
    rcases t'.saved_leave t.saved.length with hsaved | hsaved <;> simp [hsaved]
  refine ⟨.enter scope :: (moves ++ [.leave t.saved.length]), ?_, ?_⟩
  · have hinside : (⟨t.saved.length + 1, [(t.saved.length, scope)]⟩ : Nesting).moveAll? moves =
        some ⟨t'.saved.length, [(t.saved.length, scope)]⟩ := by
      have houter := Nesting.moveAll?_outer [(t.saved.length, scope)] hn
      simpa [nesting, enter] using houter
    rw [Nesting.moveAll?, Nesting.move?, Option.bind_some, nesting, Nesting.moveAll?_append, hinside]
    simp [Nesting.moveAll?, Nesting.move?, nesting, hlength]
  · change _ = (t.enter scope).moveAll (moves ++ [.leave t.saved.length])
    rw [moveAll_append, ← ht]
    rfl

theorem Returns.context_eq (h : t.Returns t') : t'.context = t.context := by
  obtain ⟨moves, hn, rfl⟩ := h
  exact (Nesting.moveAll_describes t.nesting_describes hn).context

end Thread

/-- A thread, with the numbers of the scopes that it has to close, the innermost first. -/
structure Holder extends Thread where
  held : List Nat

namespace Holder

def enter (h : Holder) (scope : Scope) : Holder := ⟨h.toThread.enter scope, h.saved.length :: h.held⟩

def leave (h : Holder) : Holder :=
  match h.held with
  | [] => h
  | number :: outer => ⟨h.toThread.leave number, outer⟩

/-- The thread has closed what it opened, and still has to close what it had to close before. -/
structure Returns (h h' : Holder) : Prop where
  thread : h.toThread.Returns h'.toThread
  held : h'.held = h.held

variable {h h' h'' : Holder}

theorem Returns.refl (h : Holder) : h.Returns h := ⟨.refl _, rfl⟩

theorem Returns.trans (hr : h.Returns h') (hr' : h'.Returns h'') : h.Returns h'' :=
  ⟨hr.thread.trans hr'.thread, hr'.held.trans hr.held⟩

theorem Returns.scope {scope : Scope} (hr : (h.enter scope).Returns h') : h.Returns h'.leave := by
  have hleave : h'.leave = ⟨h'.toThread.leave h.saved.length, h.held⟩ := by rw [leave, hr.held, enter]
  rw [hleave]
  exact ⟨hr.thread.scope, rfl⟩

end Holder

end Granularity
