import Granularity.Proofs.Acceptance
import Granularity.Proofs.Matching
import Granularity.Proofs.Split
import Granularity.Container
import Granularity.Accessor
import Granularity.WarningSite

namespace Granularity

open Text

theorem fit_cons_iff {p : Piece} {t : List Char} {ps : List Piece} {ts : List (List Char)} :
    Fit (p :: ps) (t :: ts) ↔ p.Takes t ∧ Fit ps ts := by
  constructor
  · rintro (_ | ⟨hp, hps⟩)
    exact ⟨hp, hps⟩
  · rintro ⟨hp, hps⟩
    exact .cons hp hps

namespace Pattern

variable {p : Pattern} {before : Option Char} {s : List Char} {parts : List (List Char)}

/-- The parts of a match of the pattern in some text. -/
def Captures (p : Pattern) (parts : List (List Char)) : Prop := ∃ u rest, cut? p.pieces u = some ⟨parts, rest⟩

theorem captures_of_cutAt? {k : Cut} (h : p.cutAt? before s = some k) : p.Captures k.parts := by
  rw [cutAt?] at h
  split at h
  · cases h
  · exact ⟨s, k.rest, h⟩

theorem captures_of_findFrom? (h : p.findFrom? before s = some parts) : p.Captures parts := by
  induction s generalizing before with
  | nil =>
    obtain ⟨k, hk, rfl⟩ := Option.map_eq_some_iff.1 h
    exact captures_of_cutAt? hk
  | cons c s ih =>
    rw [findFrom?] at h
    split at h
    · next k hk =>
      cases h
      exact captures_of_cutAt? hk
    · exact ih h

theorem captures_of_find? (h : p.find? s = some parts) : p.Captures parts :=
  captures_of_findFrom? h

theorem captures_of_mem_allFrom {skip : Nat} (h : parts ∈ p.allFrom before skip s) : p.Captures parts := by
  induction s generalizing before skip with
  | nil => simp [allFrom] at h
  | cons c s ih =>
    cases skip with
    | succ skip => exact ih h
    | zero =>
      rw [allFrom] at h
      split at h
      · next k hk =>
        rcases List.mem_cons.1 h with rfl | h
        · exact captures_of_cutAt? hk
        · exact ih h
      · exact ih h

theorem Captures.fit (h : p.Captures parts) : Fit p.pieces parts := by
  obtain ⟨u, rest, hcut⟩ := h
  exact (cut?_sound hcut).2

end Pattern

theorem cut?_cons {q : Piece} {ps : List Piece} {s : List Char} {k : Cut} (h : cut? (q :: ps) s = some k) :
    ∃ t r k', cut? ps r = some k' ∧ k = k'.add t := by
  cases q with
  | text t =>
    rw [cut?] at h
    split at h
    · obtain ⟨k', hk, rfl⟩ := Option.map_eq_some_iff.1 h
      exact ⟨t, _, k', hk, rfl⟩
    · cases h
  | run p =>
    cases s with
    | nil => simp [cut?] at h
    | cons c s =>
      simp only [cut?] at h
      split at h
      · obtain ⟨t, r, k', -, -, hk, rfl⟩ := longest_sound h
        exact ⟨_, r, k', hk, rfl⟩
      · cases h
  | gap p =>
    obtain ⟨t, r, k', -, -, hk, rfl⟩ := longest_sound h
    exact ⟨_, r, k', hk, rfl⟩
  | upTo p =>
    obtain ⟨t, r, k', -, -, hk, rfl⟩ := shortest_sound h
    exact ⟨_, r, k', hk, rfl⟩

theorem shortest_before {p : Char → Bool} {c : Char} {s taken : List Char} {k : Cut} (hc : c ∉ taken)
    (h : shortest p (cut? [.text [c]]) taken s = some k) : ∃ run, c ∉ run ∧ k.parts = [run, [c]] := by
  have hhere (r : List Char) (k : Cut) (hr : cut? [.text [c]] r = some k) : k.parts = [[c]] := by
    obtain ⟨-, hfit⟩ := cut?_sound hr
    generalize k.parts = parts at hfit
    rcases hfit with _ | ⟨rfl, _ | _⟩
    rfl
  induction s generalizing taken with
  | nil => simp [shortest, cut?] at h
  | cons d s ih =>
    rw [shortest] at h
    split at h
    · next k' hk =>
      cases h
      exact ⟨taken.reverse, by simpa using hc, by simp [Cut.add, hhere _ _ hk]⟩
    · next hnone =>
      -- the closing character would have ended the run here
      have hd : c ≠ d := by
        rintro rfl
        simp [cut?] at hnone
      split at h
      · exact ih (by simp [hd, hc]) h
      · cases h

theorem cut?_before {lead : List Piece} {q : Char → Bool} {c : Char} {s : List Char} {k : Cut}
    (h : cut? (lead ++ [.upTo q, .text [c]]) s = some k) : ∃ front run, c ∉ run ∧ k.parts = front ++ [run, [c]] := by
  induction lead generalizing s k with
  | nil =>
    obtain ⟨run, hrun, hparts⟩ := shortest_before List.not_mem_nil h
    exact ⟨[], run, hrun, hparts⟩
  | cons x lead ih =>
    obtain ⟨t, r, k', hk, rfl⟩ := cut?_cons h
    obtain ⟨front, run, hrun, hparts⟩ := ih hk
    exact ⟨t :: front, run, hrun, by simp [Cut.add, hparts]⟩

theorem Pattern.Captures.notMem {p : Pattern} {q : Char → Bool} {c : Char} {parts : List (List Char)}
    {run close : List Char} (h : p.Captures parts) (hp : [.upTo q, .text [c]] <:+ p.pieces)
    (hparts : [run, close] <:+ parts) : c ∉ run := by
  obtain ⟨u, rest, hcut⟩ := h
  obtain ⟨lead, hlead⟩ := hp
  obtain ⟨front, rfl⟩ := hparts
  rw [← hlead] at hcut
  obtain ⟨front', run', hrun, heq⟩ := cut?_before hcut
  obtain ⟨-, hlast⟩ := List.append_inj' heq rfl
  cases hlast
  exact hrun

theorem className?_eq_some {suffix name : String} {content : List Char} (h : className? suffix content = some name) :
    ∃ stem, stem ≠ [] ∧ (∀ c ∈ stem, isWord c = true) ∧ name.toList = stem ++ suffix.toList := by
  rw [className?] at h
  split at h
  · next stem ending _ hfind =>
    cases h
    have hfit := (Pattern.captures_of_find? hfind).fit
    simp only [classPattern, fit_cons_iff, Piece.Takes] at hfit
    obtain ⟨-, -, -, -, ⟨hne, hword⟩, rfl, -⟩ := hfit
    exact ⟨stem, hne, hword, String.toList_ofList⟩
  · cases h

theorem mem_constructions {keyType : String} {content : List Char} {x : String × List Char}
    (h : x ∈ constructions keyType content) : ')' ∉ x.2 ∧ '\n' ∉ x.2 := by
  obtain ⟨parts, hparts, hx⟩ := List.mem_filterMap.1 h
  unfold constructionOfParts? at hx
  split at hx
  · next a b d e f g i run close =>
    cases hx
    have hcaptures := Pattern.captures_of_mem_allFrom hparts
    have hfit := hcaptures.fit
    simp only [constructionPattern, putPieces, fit_cons_iff, Piece.Takes] at hfit
    obtain ⟨-, -, -, -, -, -, -, hrun, -⟩ := hfit
    refine ⟨?_, fun hfeed => by simpa [isInLine] using hrun _ hfeed⟩
    exact hcaptures.notMem ⟨.run isWord :: (putPieces keyType).take 6, rfl⟩ ⟨[a, b, d, e, f, g, i], rfl⟩
  · cases hx

end Granularity
