import Granularity.Proofs.Split

/-!
Replacing and removing a piece of text. A text without the piece stays, and texts are treated apart where no
occurrence can lie across their seam; so to remove a piece is to cut the text at each of its occurrences.
-/

namespace Granularity.Text

variable {piece other : List Char}

theorem replaceFrom_skip (piece other a b : List Char) :
    replaceFrom piece other a.length (a ++ b) = replaceFrom piece other 0 b := by
  induction a with
  | nil => rfl
  | cons c a ih => exact ih

theorem replaceFrom_of_absent {cs : List Char} (h : ¬ piece <:+: cs) : replaceFrom piece other 0 cs = cs := by
  induction cs with
  | nil => rfl
  | cons c cs ih =>
    have hhere : ¬ piece.isPrefixOf (c :: cs) = true := fun hp => h (List.isPrefixOf_iff_prefix.1 hp).isInfix
    rw [replaceFrom, if_neg hhere, ih fun hi => h (List.infix_cons_iff.2 (Or.inr hi))]

theorem isPrefix_append_iff {a b : List Char} (hne : a ≠ []) (hseam : ∀ c ∈ b.head?, c ∉ piece.tail) :
    piece <+: a ++ b ↔ piece <+: a := by
  refine ⟨fun h => ?_, fun h => h.trans (List.prefix_append a b)⟩
  obtain ⟨rest, hrest⟩ := h
  rcases List.append_eq_append_iff.1 hrest with ⟨more, ha, -⟩ | ⟨more, hpiece, hb⟩
  · exact ⟨more, ha.symm⟩
  · cases more with
    | nil => exact (hpiece.trans (List.append_nil a)).symm ▸ List.prefix_rfl
    | cons c more =>
      -- an occurrence across the seam would hold the first character behind it in its tail
      obtain ⟨x, a, rfl⟩ := List.exists_cons_of_ne_nil hne
      exact absurd (by simp [hpiece]) (hseam c (by simp [hb]))

theorem replaceFrom_append {a b : List Char} {n : Nat} (hn : n ≤ a.length)
    (hseam : ∀ c ∈ b.head?, c ∉ piece.tail) :
    replaceFrom piece other n (a ++ b) = replaceFrom piece other n a ++ replaceFrom piece other 0 b := by
  induction a generalizing n with
  | nil =>
    obtain rfl : n = 0 := by simpa using hn
    rfl
  | cons c a ih =>
    rw [List.cons_append]
    cases n with
    | succ n => exact ih (by simpa using hn)
    | zero =>
      have hsame : piece.isPrefixOf (c :: (a ++ b)) = piece.isPrefixOf (c :: a) := by
        rw [Bool.eq_iff_iff, List.isPrefixOf_iff_prefix, List.isPrefixOf_iff_prefix, ← List.cons_append]
        exact isPrefix_append_iff (by simp) hseam
      rw [replaceFrom, replaceFrom, hsame]
      split
      · next hp =>
        have hlength := (List.isPrefixOf_iff_prefix.1 hp).length_le
        rw [List.length_cons] at hlength
        rw [ih (by omega), List.append_assoc]
      · rw [ih (Nat.zero_le _), List.cons_append]

theorem remove_of_absent {cs : List Char} (h : ¬ piece <:+: cs) : remove piece cs = cs :=
  replaceFrom_of_absent h

theorem remove_append {a b : List Char} (hseam : ∀ c ∈ b.head?, c ∉ piece.tail) :
    remove piece (a ++ b) = remove piece a ++ remove piece b :=
  replaceFrom_append (Nat.zero_le _) hseam

theorem remove_piece_append (hne : piece ≠ []) (b : List Char) : remove piece (piece ++ b) = remove piece b := by
  obtain ⟨c, rest, rfl⟩ := List.exists_cons_of_ne_nil hne
  have hhere : (c :: rest).isPrefixOf (c :: (rest ++ b)) = true :=
    List.isPrefixOf_iff_prefix.2 (List.prefix_append (c :: rest) b)
  rw [remove, List.cons_append, replaceFrom, if_pos hhere, List.nil_append]
  exact replaceFrom_skip (c :: rest) [] rest b

/-- `out` is what is left of `cs` when it is cut at each occurrence of the piece: the parts in between hold none. -/
def CutOut (piece cs out : List Char) : Prop :=
  ∃ parts : List (List Char), parts ≠ [] ∧ (∀ part ∈ parts, ¬ piece <:+: part) ∧ joinWith piece parts = cs ∧
    parts.flatten = out

theorem joinWith_cons_cons (sep part q : List Char) (parts : List (List Char)) :
    joinWith sep (part :: q :: parts) = part ++ sep ++ joinWith sep (q :: parts) :=
  rfl

theorem joinWith_append (sep : List Char) {a b : List (List Char)} (ha : a ≠ []) (hb : b ≠ []) :
    joinWith sep (a ++ b) = joinWith sep a ++ sep ++ joinWith sep b := by
  induction a with
  | nil => exact absurd rfl ha
  | cons part a ih =>
    cases a with
    | nil =>
      obtain ⟨q, b, rfl⟩ := List.exists_cons_of_ne_nil hb
      rfl
    | cons q a =>
      rw [List.cons_append, List.cons_append, joinWith_cons_cons, joinWith_cons_cons, ← List.cons_append,
        ih (by simp)]
      simp only [List.append_assoc]

theorem exists_joinWith (hne : piece ≠ []) (cs : List Char) :
    ∃ parts : List (List Char), parts ≠ [] ∧ (∀ part ∈ parts, ¬ piece <:+: part) ∧ joinWith piece parts = cs := by
  by_cases h : piece <:+: cs
  · -- both sides of any occurrence are shorter, and their parts go together
    obtain ⟨a, b, hab⟩ := h
    have hpos := List.length_pos_iff.2 hne
    have hlength : a.length + piece.length + b.length = cs.length := by
      rw [← hab, List.length_append, List.length_append]
    obtain ⟨as, hane, ha, haj⟩ := exists_joinWith hne a
    obtain ⟨bs, hbne, hb, hbj⟩ := exists_joinWith hne b
    refine ⟨as ++ bs, by simp [hane], fun part hpart => ?_, by rw [joinWith_append piece hane hbne, haj, hbj, hab]⟩
    exact (List.mem_append.1 hpart).elim (ha part) (hb part)
  · exact ⟨[cs], by simp, by simpa using h, rfl⟩
termination_by cs.length
decreasing_by all_goals omega

theorem remove_joinWith (hne : piece ≠ []) (hopens : ∀ c ∈ piece.head?, c ∉ piece.tail) {parts : List (List Char)}
    (h : ∀ part ∈ parts, ¬ piece <:+: part) : remove piece (joinWith piece parts) = parts.flatten := by
  induction parts with
  | nil => rfl
  | cons part parts ih =>
    have hpart : remove piece part = part := remove_of_absent (h part List.mem_cons_self)
    have ih := ih fun q hq => h q (List.mem_cons_of_mem part hq)
    cases parts with
    | nil => simpa [joinWith] using hpart
    | cons q parts =>
      have hseam : ∀ c ∈ (piece ++ joinWith piece (q :: parts)).head?, c ∉ piece.tail := by
        rwa [List.head?_append_of_ne_nil _ hne]
      rw [joinWith_cons_cons, List.append_assoc, remove_append hseam, hpart, remove_piece_append hne, ih]
      rfl

theorem cutOut_remove (hne : piece ≠ []) (hopens : ∀ c ∈ piece.head?, c ∉ piece.tail) (cs : List Char) :
    CutOut piece cs (remove piece cs) := by
  obtain ⟨parts, hparts, hfree, rfl⟩ := exists_joinWith hne cs
  exact ⟨parts, hparts, hfree, rfl, (remove_joinWith hne hopens hfree).symm⟩

theorem flatten_sublist_joinWith (sep : List Char) (parts : List (List Char)) :
    parts.flatten.Sublist (joinWith sep parts) := by
  induction parts with
  | nil => exact .slnil
  | cons part parts ih =>
    cases parts with
    | nil => simp [joinWith]
    | cons q parts =>
      rw [joinWith_cons_cons, List.append_assoc]
      exact (List.Sublist.refl part).append (ih.trans (List.sublist_append_right sep _))

theorem CutOut.sublist {cs out : List Char} (h : CutOut piece cs out) : out.Sublist cs := by
  obtain ⟨parts, -, -, rfl, rfl⟩ := h
  exact flatten_sublist_joinWith piece parts

theorem CutOut.absent {cs : List Char} (hne : piece ≠ []) (h : CutOut piece cs cs) : ¬ piece <:+: cs := by
  obtain ⟨parts, hparts, hfree, hjoin, hflat⟩ := h
  obtain ⟨part, parts, rfl⟩ := List.exists_cons_of_ne_nil hparts
  cases parts with
  | nil =>
    obtain rfl : part = cs := hjoin
    exact hfree part List.mem_cons_self
  | cons q parts =>
    have hlength := List.length_pos_iff.2 hne
    have hle := (flatten_sublist_joinWith piece (q :: parts)).length_le
    have heq : (part :: q :: parts).flatten.length = (joinWith piece (part :: q :: parts)).length := by
      rw [hjoin, hflat]
    rw [joinWith_cons_cons] at heq
    simp only [List.flatten_cons, List.length_append] at hle heq
    omega

end Granularity.Text
