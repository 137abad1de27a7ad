import Granularity.Text.Range

namespace Granularity.Text

def blankRanges : Ranges := [
  (0x9, 0xD), (0x20, 0x20), (0x85, 0x85), (0xA0, 0xA0), (0x1680, 0x1680), (0x2000, 0x200A),
  (0x2028, 0x2029), (0x202F, 0x202F), (0x205F, 0x205F), (0x3000, 0x3000)]

def isBlank (c : Char) : Bool :=
  blankRanges.contains c.toNat

def trim (cs : List Char) : List Char :=
  ((cs.dropWhile isBlank).reverse.dropWhile isBlank).reverse

/-- The tokens of `cs`, where `current` is the token being read, last character first. -/
def tokensFrom (current : List Char) : List Char → List (List Char)
  | [] => if current.isEmpty then [] else [current.reverse]
  | c :: rest =>
    if isBlank c then
      if current.isEmpty then tokensFrom [] rest else current.reverse :: tokensFrom [] rest
    else tokensFrom (c :: current) rest

def tokens (cs : List Char) : List (List Char) :=
  tokensFrom [] cs

theorem mem_tokensFrom {current cs t : List Char} (h : t ∈ tokensFrom current cs)
    (hc : ∀ c ∈ current, isBlank c = false) : t ≠ [] ∧ ∀ c ∈ t, isBlank c = false := by
  induction cs generalizing current with
  | nil =>
    simp only [tokensFrom] at h
    split at h
    · simp at h
    · next hne => simp_all
  | cons c cs ih =>
    simp only [tokensFrom] at h
    split at h
    · split at h
      · exact ih h (by simp)
      · next hne =>
        rcases List.mem_cons.1 h with rfl | h
        · simp_all
        · exact ih h (by simp)
    · next hb => exact ih h (by simp_all)

end Granularity.Text
