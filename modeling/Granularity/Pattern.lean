import Granularity.Text.Word

/-!
Patterns over text: a list of pieces, each a fixed text or a run of characters of one class. A match
cuts the text into one part per piece. Of several cuts the first in the order of preference counts:
earlier pieces decide first, a `run` or a `gap` as long as it can be, an `upTo` as short as it can be.
-/

namespace Granularity

/-- A fixed text, one or more characters of a class, or any number of them. -/
inductive Piece where
  | text (s : List Char)
  | run (p : Char → Bool)
  | gap (p : Char → Bool)
  | upTo (p : Char → Bool)

def Piece.Takes : Piece → List Char → Prop
  | .text s, t => t = s
  | .run p, t => t ≠ [] ∧ ∀ c ∈ t, p c = true
  | .gap p, t => ∀ c ∈ t, p c = true
  | .upTo p, t => ∀ c ∈ t, p c = true

structure Cut where
  parts : List (List Char)
  rest : List Char

def Cut.add (t : List Char) (k : Cut) : Cut :=
  ⟨t :: k.parts, k.rest⟩

def Cut.size (k : Cut) : Nat :=
  k.parts.flatten.length

/-- The cut with the longest run of `p` in front that `next` accepts; `taken` is the run so far, last
character first. -/
def longest (p : Char → Bool) (next : List Char → Option Cut) (taken : List Char) : List Char → Option Cut
  | [] => (next []).map (Cut.add taken.reverse)
  | c :: rest =>
    if p c then
      match longest p next (c :: taken) rest with
      | some k => some k
      | none => (next (c :: rest)).map (Cut.add taken.reverse)
    else (next (c :: rest)).map (Cut.add taken.reverse)

def shortest (p : Char → Bool) (next : List Char → Option Cut) (taken : List Char) : List Char → Option Cut
  | [] => (next []).map (Cut.add taken.reverse)
  | c :: rest =>
    match next (c :: rest) with
    | some k => some (k.add taken.reverse)
    | none => if p c then shortest p next (c :: taken) rest else none

def cut? : List Piece → List Char → Option Cut
  | [], s => some ⟨[], s⟩
  | .text t :: ps, s =>
    if t.isPrefixOf s then (cut? ps (s.drop t.length)).map (Cut.add t) else none
  | .run p :: ps, s =>
    match s with
    | [] => none
    | c :: rest => if p c then longest p (cut? ps) [c] rest else none
  | .gap p :: ps, s => longest p (cut? ps) [] s
  | .upTo p :: ps, s => shortest p (cut? ps) [] s

structure Pattern where
  atWordStart : Bool
  pieces : List Piece

namespace Pattern

def cutAt? (p : Pattern) (before : Option Char) (s : List Char) : Option Cut :=
  if p.atWordStart && before.any Text.isWord then none else cut? p.pieces s

def findFrom? (p : Pattern) (before : Option Char) : List Char → Option (List (List Char))
  | [] => (p.cutAt? before []).map Cut.parts
  | c :: rest =>
    match p.cutAt? before (c :: rest) with
    | some k => some k.parts
    | none => p.findFrom? (some c) rest

def find? (p : Pattern) (s : List Char) : Option (List (List Char)) :=
  p.findFrom? none s

/-- The parts of the matches from left to right, where the next `skip` characters belong to a match
already found. -/
def allFrom (p : Pattern) (before : Option Char) : Nat → List Char → List (List (List Char))
  | _, [] => []
  | skip + 1, c :: rest => p.allFrom (some c) skip rest
  | 0, c :: rest =>
    match p.cutAt? before (c :: rest) with
    | some k => k.parts :: p.allFrom (some c) (k.size - 1) rest
    | none => p.allFrom (some c) 0 rest

/-- The parts of all matches that do not overlap, each the leftmost behind the one before it. No
pattern that takes nothing is meant here. -/
def all (p : Pattern) (s : List Char) : List (List (List Char)) :=
  p.allFrom none 0 s

end Pattern

inductive Fit : List Piece → List (List Char) → Prop where
  | nil : Fit [] []
  | cons {p : Piece} {t : List Char} {ps : List Piece} {ts : List (List Char)} :
      p.Takes t → Fit ps ts → Fit (p :: ps) (t :: ts)

theorem longest_sound {p : Char → Bool} {next : List Char → Option Cut} {s taken : List Char} {k : Cut}
    (h : longest p next taken s = some k) :
    ∃ t r k', s = t ++ r ∧ (∀ c ∈ t, p c = true) ∧ next r = some k' ∧ k = k'.add (taken.reverse ++ t) := by
  induction s generalizing taken with
  | nil =>
    obtain ⟨k', hk, rfl⟩ := Option.map_eq_some_iff.1 h
    exact ⟨[], [], k', rfl, by simp, hk, by simp⟩
  | cons c rest ih =>
    have here : (next (c :: rest)).map (Cut.add taken.reverse) = some k →
        ∃ t r k', c :: rest = t ++ r ∧ (∀ c ∈ t, p c = true) ∧ next r = some k' ∧
          k = k'.add (taken.reverse ++ t) := by
      intro h
      obtain ⟨k', hk, rfl⟩ := Option.map_eq_some_iff.1 h
      exact ⟨[], c :: rest, k', rfl, by simp, hk, by simp⟩
    simp only [longest] at h
    split at h
    · next hc =>
      split at h
      · next k₁ h₁ =>
        obtain rfl : k₁ = k := Option.some.inj h
        obtain ⟨t, r, k', rfl, ht, hn, hk⟩ := ih h₁
        exact ⟨c :: t, r, k', rfl, by simpa [hc] using ht, hn, by simp [hk]⟩
      · exact here h
    · exact here h

theorem shortest_sound {p : Char → Bool} {next : List Char → Option Cut} {s taken : List Char} {k : Cut}
    (h : shortest p next taken s = some k) :
    ∃ t r k', s = t ++ r ∧ (∀ c ∈ t, p c = true) ∧ next r = some k' ∧ k = k'.add (taken.reverse ++ t) := by
  induction s generalizing taken with
  | nil =>
    obtain ⟨k', hk, rfl⟩ := Option.map_eq_some_iff.1 h
    exact ⟨[], [], k', rfl, by simp, hk, by simp⟩
  | cons c rest ih =>
    simp only [shortest] at h
    split at h
    · next k₁ h₁ =>
      obtain rfl := Option.some.inj h
      exact ⟨[], c :: rest, k₁, rfl, by simp, h₁, by simp⟩
    · split at h
      · next hc =>
        obtain ⟨t, r, k', rfl, ht, hn, hk⟩ := ih h
        exact ⟨c :: t, r, k', rfl, by simpa [hc] using ht, hn, by simp [hk]⟩
      · simp at h

theorem cut?_sound {ps : List Piece} {s : List Char} {k : Cut} (h : cut? ps s = some k) :
    s = k.parts.flatten ++ k.rest ∧ Fit ps k.parts := by
  induction ps generalizing s k with
  | nil =>
    simp only [cut?, Option.some.injEq] at h
    subst h
    exact ⟨by simp, .nil⟩
  | cons q ps ih =>
    cases q with
    | text t =>
      simp only [cut?] at h
      split at h
      · next hp =>
        obtain ⟨k', hk, rfl⟩ := Option.map_eq_some_iff.1 h
        obtain ⟨r, rfl⟩ := List.isPrefixOf_iff_prefix.1 hp
        obtain ⟨h₁, h₂⟩ := ih hk
        rw [List.drop_left] at h₁
        exact ⟨by simp [Cut.add, h₁], .cons rfl h₂⟩
      · simp at h
    | run p =>
      cases s with
      | nil => simp [cut?] at h
      | cons c rest =>
        simp only [cut?] at h
        split at h
        · next hc =>
          obtain ⟨t, r, k', rfl, ht, hn, rfl⟩ := longest_sound h
          obtain ⟨h₁, h₂⟩ := ih hn
          exact ⟨by simp [Cut.add, h₁], .cons ⟨by simp, by simpa [hc] using ht⟩ h₂⟩
        · simp at h
    | gap p =>
      obtain ⟨t, r, k', rfl, ht, hn, rfl⟩ := longest_sound h
      obtain ⟨h₁, h₂⟩ := ih hn
      exact ⟨by simp [Cut.add, h₁], .cons ht h₂⟩
    | upTo p =>
      obtain ⟨t, r, k', rfl, ht, hn, rfl⟩ := shortest_sound h
      obtain ⟨h₁, h₂⟩ := ih hn
      exact ⟨by simp [Cut.add, h₁], .cons ht h₂⟩

end Granularity
