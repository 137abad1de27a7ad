import Granularity.Text.Infix
import Mathlib.Data.List.Basic

namespace Granularity

theorem flatMap_filter_eq {α β : Type} (l : List α) (keep : α → Bool) (f g : α → List β)
    (hkeep : ∀ a ∈ l, keep a = true → f a = g a) (hdrop : ∀ a ∈ l, keep a = false → g a = []) :
    (l.filter keep).flatMap f = l.flatMap g := by
  induction l with
  | nil => rfl
  | cons a l ih =>
    have ih := ih (fun b hb => hkeep b (List.mem_cons_of_mem _ hb)) (fun b hb => hdrop b (List.mem_cons_of_mem _ hb))
    cases hk : keep a with
    | true => simp [hk, ih, hkeep a (by simp) hk]
    | false => simp [hk, ih, hdrop a (by simp) hk]

namespace Text

theorem splitAt_of_notMem {sep : Char} {cs : List Char} (h : sep ∉ cs) : splitAt sep cs = [cs] := by
  induction cs with
  | nil => rfl
  | cons c cs ih =>
    obtain ⟨hc, hcs⟩ : sep ≠ c ∧ sep ∉ cs := by simpa using h
    simp only [splitAt, ih hcs]
    rw [if_neg (by simpa using hc.symm)]

theorem splitAt_append (sep : Char) (a b : List Char) :
    splitAt sep (a ++ sep :: b) = splitAt sep a ++ splitAt sep b := by
  induction a with
  | nil => simp [splitAt]
  | cons c a ih =>
    simp only [List.cons_append, splitAt, ih]
    split
    · rfl
    · cases h : splitAt sep a with
      | nil => exact absurd h (splitAt_ne_nil sep a)
      | cons part parts => rfl

theorem splitAt_joinWith {sep : Char} {parts : List (List Char)} (hne : parts ≠ [])
    (h : ∀ part ∈ parts, sep ∉ part) : splitAt sep (joinWith [sep] parts) = parts := by
  induction parts with
  | nil => exact absurd rfl hne
  | cons part parts ih =>
    cases parts with
    | nil => simpa [joinWith] using splitAt_of_notMem (h part (by simp))
    | cons q parts =>
      simp only [joinWith, List.append_assoc, List.singleton_append]
      rw [splitAt_append, splitAt_of_notMem (h part (by simp)),
        ih (by simp) fun p hp => h p (List.mem_cons_of_mem _ hp)]
      rfl

theorem mem_joinWith {sep : List Char} {parts : List (List Char)} {c : Char} (hc : c ∉ sep) :
    c ∈ joinWith sep parts ↔ ∃ part ∈ parts, c ∈ part := by
  induction parts with
  | nil => simp [joinWith]
  | cons part parts ih =>
    cases parts with
    | nil => simp [joinWith]
    | cons q parts => simp [joinWith, ih, hc]

end Text

end Granularity
