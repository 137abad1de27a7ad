import Mathlib.Algebra.Group.Nat.Defs
import Mathlib.Data.String.Basic

namespace Granularity

namespace Text

def bytes (s : String) : List UInt8 := s.toUTF8.data.toList

theorem bytes_eq_flatMap (s : String) : bytes s = s.toList.flatMap String.utf8EncodeChar := by
  have hencoded : s.toByteArray = s.toList.utf8Encode := by
    rw [← String.toByteArray_ofList, String.ofList_toList]
  rw [bytes, String.toUTF8_eq_toByteArray, hencoded, List.utf8Encode, List.data_toByteArray]

/-- The last `k` groups of six bits of a code, one byte for each. -/
def continuation (code : Nat) : Nat → List UInt8
  | 0 => []
  | k + 1 => UInt8.ofNat (code / 64 ^ k % 64 + 128) :: continuation code k

/-- A code takes `k` bytes behind its first one, which bears the mark. -/
def Form (code k mark : Nat) : Prop :=
  k = 0 ∧ mark = 0 ∧ code ≤ 0x7f ∨ k = 1 ∧ mark = 0xc0 ∧ 0x7f < code ∧ code ≤ 0x7ff ∨
    k = 2 ∧ mark = 0xe0 ∧ 0x7ff < code ∧ code ≤ 0xffff ∨ k = 3 ∧ mark = 0xf0 ∧ 0xffff < code ∧ code < 0x110000

theorem utf8EncodeChar_form (c : Char) : ∃ k mark, Form c.toNat k mark ∧
    String.utf8EncodeChar c = UInt8.ofNat (c.toNat / 64 ^ k + mark) :: continuation c.toNat k := by
  have hmax : c.toNat < 0x110000 := by
    rcases c.valid with h | h
    · exact Nat.lt_trans h (by decide)
    · exact h.2
  rw [String.utf8EncodeChar, Char.toNat_val]
  generalize c.toNat = n at hmax
  split
  · exact ⟨0, 0, by unfold Form; omega, by simp [continuation]⟩
  · split
    · refine ⟨1, 0xc0, by unfold Form; omega, ?_⟩
      rw [Nat.mod_eq_of_lt (by omega : n / 64 < 32)]
      simp [continuation]
    · split
      · refine ⟨2, 0xe0, by unfold Form; omega, ?_⟩
        rw [Nat.mod_eq_of_lt (by omega : n / 4096 < 16)]
        simp [continuation]
      · refine ⟨3, 0xf0, by unfold Form; omega, ?_⟩
        rw [Nat.mod_eq_of_lt (by omega : n / 262144 < 8)]
        simp [continuation]

theorem ofNat_cons_lt {a b : Nat} (hb : b < 256) {u v : List UInt8} (h : a < b ∨ a = b ∧ u < v) :
    UInt8.ofNat a :: u < UInt8.ofNat b :: v := by
  rw [List.cons_lt_cons_iff]
  rcases h with hlt | ⟨rfl, huv⟩
  · left
    rw [UInt8.ofNat_lt_iff_lt (Nat.lt_trans hlt hb) hb]
    exact hlt
  · exact Or.inr ⟨rfl, huv⟩

theorem continuation_lt {m n k : Nat} (h : m % 64 ^ k < n % 64 ^ k) (u v : List UInt8) :
    continuation m k ++ u < continuation n k ++ v := by
  induction k with
  | zero => simp [Nat.mod_one] at h
  | succ k ih =>
    apply ofNat_cons_lt (by omega)
    rw [Nat.mod_pow_succ, Nat.mod_pow_succ] at h
    have hpos : 0 < 64 ^ k := Nat.pow_pos (by decide)
    have hm := Nat.mod_lt m hpos
    have hn := Nat.mod_lt n hpos
    rcases Nat.lt_trichotomy (m / 64 ^ k % 64) (n / 64 ^ k % 64) with hlt | heq | hgt
    · left
      omega
    · right
      rw [heq] at h
      exact ⟨by omega, ih (by omega)⟩
    · have hgroup := Nat.mul_le_mul_left (64 ^ k) hgt
      rw [Nat.mul_succ] at hgroup
      omega

theorem utf8EncodeChar_append_lt {c d : Char} (h : c < d) (u v : List UInt8) :
    String.utf8EncodeChar c ++ u < String.utf8EncodeChar d ++ v := by
  have hlt : c.toNat < d.toNat := h
  obtain ⟨k, a, hk, hc⟩ := utf8EncodeChar_form c
  obtain ⟨l, b, hl, hd⟩ := utf8EncodeChar_form d
  rw [hc, hd]
  have hlead : d.toNat / 64 ^ l + b < 256 := by
    rcases hl with ⟨rfl, rfl, hl⟩ | ⟨rfl, rfl, hl⟩ | ⟨rfl, rfl, hl⟩ | ⟨rfl, rfl, hl⟩ <;> omega
  apply ofNat_cons_lt hlead
  by_cases hkl : k = l
  · subst hkl
    -- codes of one length differ in the first byte or behind it
    obtain rfl : a = b := by
      unfold Form at hk hl
      omega
    have hle : c.toNat / 64 ^ k ≤ d.toNat / 64 ^ k := Nat.div_le_div_right (Nat.le_of_lt hlt)
    rcases Nat.lt_or_eq_of_le hle with hdiv | hdiv
    · left
      omega
    · right
      refine ⟨by rw [hdiv], continuation_lt ?_ u v⟩
      have hc := Nat.div_add_mod c.toNat (64 ^ k)
      have hd := Nat.div_add_mod d.toNat (64 ^ k)
      rw [hdiv] at hc
      omega
  · left
    rcases hk with ⟨rfl, rfl, hk⟩ | ⟨rfl, rfl, hk⟩ | ⟨rfl, rfl, hk⟩ | ⟨rfl, rfl, hk⟩ <;>
      rcases hl with ⟨rfl, rfl, hl⟩ | ⟨rfl, rfl, hl⟩ | ⟨rfl, rfl, hl⟩ | ⟨rfl, rfl, hl⟩ <;> omega

theorem flatMap_utf8EncodeChar_lt {a b : List Char} (h : a < b) :
    a.flatMap String.utf8EncodeChar < b.flatMap String.utf8EncodeChar := by
  induction h with
  | @nil c b =>
    obtain ⟨k, mark, -, hc⟩ := utf8EncodeChar_form c
    rw [List.flatMap_cons, hc]
    exact List.nil_lt_cons _ _
  | rel hcd =>
    rw [List.flatMap_cons, List.flatMap_cons]
    exact utf8EncodeChar_append_lt hcd _ _
  | cons _ ih =>
    rw [List.flatMap_cons, List.flatMap_cons]
    exact List.append_left_lt ih

theorem bytes_lt_bytes {a b : String} (h : a < b) : bytes a < bytes b := by
  rw [bytes_eq_flatMap, bytes_eq_flatMap]
  exact flatMap_utf8EncodeChar_lt (String.lt_iff_toList_lt.1 h)

end Text

end Granularity
