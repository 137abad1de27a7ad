namespace Granularity.Text

def hasInfix (piece : List Char) : List Char → Bool
  | [] => piece.isEmpty
  | c :: rest => piece.isPrefixOf (c :: rest) || hasInfix piece rest

/-- Replaces `piece` by `other` from left to right, where the next `skip` characters are dropped as
part of a piece already replaced. What is put in is not searched again. -/
def replaceFrom (piece other : List Char) : Nat → List Char → List Char
  | _, [] => []
  | skip + 1, _ :: rest => replaceFrom piece other skip rest
  | 0, c :: rest =>
    if piece.isPrefixOf (c :: rest) then other ++ replaceFrom piece other (piece.length - 1) rest
    else c :: replaceFrom piece other 0 rest

def remove (piece cs : List Char) : List Char :=
  replaceFrom piece [] 0 cs

def splitAt (sep : Char) : List Char → List (List Char)
  | [] => [[]]
  | c :: rest =>
    if c == sep then [] :: splitAt sep rest
    else match splitAt sep rest with
      | part :: parts => (c :: part) :: parts
      | [] => [[c]]

def joinWith (sep : List Char) : List (List Char) → List Char
  | [] => []
  | [part] => part
  | part :: parts => part ++ sep ++ joinWith sep parts

theorem splitAt_ne_nil (sep : Char) (cs : List Char) : splitAt sep cs ≠ [] := by
  cases cs with
  | nil => simp [splitAt]
  | cons c rest => simp only [splitAt]; split <;> (try split) <;> simp

theorem joinWith_splitAt (sep : Char) (cs : List Char) : joinWith [sep] (splitAt sep cs) = cs := by
  induction cs with
  | nil => rfl
  | cons c rest ih =>
    have hne := splitAt_ne_nil sep rest
    simp only [splitAt]
    generalize splitAt sep rest = parts at ih hne
    cases parts with
    | nil => exact absurd rfl hne
    | cons part parts =>
      split
      · next hc => simp_all [joinWith]
      · cases parts <;> simp_all [joinWith]

theorem not_mem_of_mem_splitAt {sep : Char} {cs part : List Char} (h : part ∈ splitAt sep cs) : sep ∉ part := by
  induction cs generalizing part with
  | nil => simp_all [splitAt]
  | cons c rest ih =>
    have hne := splitAt_ne_nil sep rest
    simp only [splitAt] at h
    generalize splitAt sep rest = parts at ih hne h
    cases parts with
    | nil => exact absurd rfl hne
    | cons p parts =>
      split at h
      · rcases List.mem_cons.1 h with rfl | h
        · simp
        · exact ih h
      · next hc =>
        rcases List.mem_cons.1 h with rfl | h
        · have hp : sep ∉ p := ih (by simp)
          have hc : ¬ sep = c := fun h => hc (by simp [h])
          simp [hp, hc]
        · exact ih (List.mem_cons_of_mem _ h)

theorem hasInfix_iff (piece cs : List Char) : hasInfix piece cs = true ↔ piece <:+: cs := by
  induction cs with
  | nil => simp [hasInfix]
  | cons c rest ih => simp [hasInfix, ih, List.infix_cons_iff]

end Granularity.Text
