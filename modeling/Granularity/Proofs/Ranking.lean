import Granularity.Risk
import Mathlib.Data.List.Basic
import Mathlib.Order.Lattice

/-!
Ranking is a stable sort: by falling key, and what has one key stands as it stood before. There is only
one such list, so the issues of one kind stand in a ranking as they would alone.
-/

namespace Granularity

section Stable

variable {α κ μ : Type} [LinearOrder κ] [LinearOrder μ] {key : α → κ} {l r r' : List α}

/-- The items of `l` by falling `key`; those of one key in the order of `l`. -/
structure RankedBy (key : α → κ) (l r : List α) : Prop where
  falling : r.Pairwise fun a b => key b ≤ key a
  stable : ∀ k, r.filter (fun a => key a = k) = l.filter fun a => key a = k

theorem eq_of_falling (h : r.Pairwise fun a b => key b ≤ key a) (h' : r'.Pairwise fun a b => key b ≤ key a)
    (hsame : ∀ k, r.filter (fun a => key a = k) = r'.filter fun a => key a = k) : r = r' := by
  have hmem {r r' : List α} {a : α} (hsame : ∀ k, r.filter (fun a => key a = k) = r'.filter fun a => key a = k)
      (ha : a ∈ r) : a ∈ r' := by
    have hfilter : a ∈ r.filter fun b => key b = key a := by simpa using ha
    rw [hsame] at hfilter
    exact (List.mem_filter.1 hfilter).1
  induction r generalizing r' with
  | nil =>
    cases r' with
    | nil => rfl
    | cons b r' => exact absurd (hmem (fun k => (hsame k).symm) List.mem_cons_self) List.not_mem_nil
  | cons a r ih =>
    cases r' with
    | nil => exact absurd (hmem hsame List.mem_cons_self) List.not_mem_nil
    | cons b r' =>
      obtain ⟨ha, hr⟩ := List.pairwise_cons.1 h
      obtain ⟨hb, hr'⟩ := List.pairwise_cons.1 h'
      -- both heads have the largest key, so each is the first item of that key
      have hkey : key b = key a := by
        apply le_antisymm
        · rcases List.mem_cons.1 (hmem (fun k => (hsame k).symm) List.mem_cons_self) with rfl | hm
          · exact le_rfl
          · exact ha b hm
        · rcases List.mem_cons.1 (hmem hsame List.mem_cons_self) with rfl | hm
          · exact le_rfl
          · exact hb a hm
      have hhead := hsame (key a)
      rw [List.filter_cons_of_pos (by simp), List.filter_cons_of_pos (by simp [hkey])] at hhead
      obtain ⟨rfl, htail⟩ := List.cons.inj hhead
      rw [ih hr hr' fun k => ?_]
      by_cases hk : key a = k
      · rw [← hk, htail]
      · have hrest := hsame k
        rwa [List.filter_cons_of_neg (by simpa using hk), List.filter_cons_of_neg (by simpa using hk)] at hrest

namespace RankedBy

theorem unique (h : RankedBy key l r) (h' : RankedBy key l r') : r = r' :=
  eq_of_falling h.falling h'.falling fun k => (h.stable k).trans (h'.stable k).symm

theorem of_perm (hperm : r.Perm l) (h : r.Pairwise fun a b => key b < key a) : RankedBy key l r where
  falling := h.imp le_of_lt
  stable k := by
    have hfilter := hperm.filter fun a => key a = k
    -- no two items have the same key
    cases hr : r.filter fun a => key a = k with
    | nil =>
      rw [hr] at hfilter
      exact hfilter.nil_eq
    | cons a rest =>
      cases rest with
      | nil =>
        rw [hr] at hfilter
        exact (List.perm_singleton.1 hfilter.symm).symm
      | cons b rest =>
        have hfalling := h.filter fun a => key a = k
        rw [hr, List.pairwise_cons] at hfalling
        have hlt := hfalling.1 b List.mem_cons_self
        have hkey : ∀ c ∈ a :: b :: rest, key c = k := by
          rw [← hr]
          intro c hc
          simpa using (List.mem_filter.1 hc).2
        rw [hkey a (by simp), hkey b (by simp)] at hlt
        exact absurd hlt (lt_irrefl k)

theorem mem_iff (h : RankedBy key l r) {a : α} : a ∈ r ↔ a ∈ l := by
  have hfilter : a ∈ r.filter (fun b => key b = key a) ↔ a ∈ l.filter fun b => key b = key a := by
    rw [h.stable]
  simpa using hfilter

theorem filter (h : RankedBy key l r) (p : α → Bool) : RankedBy key (l.filter p) (r.filter p) where
  falling := h.falling.filter p
  stable k := by
    have hcomm (m : List α) : (m.filter p).filter (fun a => key a = k) = (m.filter fun a => key a = k).filter p := by
      simp only [List.filter_filter, Bool.and_comm]
    rw [hcomm, hcomm, h.stable]

theorem congr {key' : α → μ} (h : RankedBy key l r) (hkeys : ∀ a ∈ l, ∀ b ∈ l, key' a ≤ key' b ↔ key a ≤ key b) :
    RankedBy key' l r where
  falling := by
    refine h.falling.imp_of_mem fun ha hb hle => ?_
    exact (hkeys _ (h.mem_iff.1 hb) _ (h.mem_iff.1 ha)).2 hle
  stable k := by
    have heq {a b : α} (ha : a ∈ l) (hb : b ∈ l) : key' a = key' b ↔ key a = key b := by
      rw [le_antisymm_iff, le_antisymm_iff, hkeys a ha b hb, hkeys b hb a ha]
    by_cases hk : ∃ b ∈ l, key' b = k
    · obtain ⟨b, hb, rfl⟩ := hk
      have hsame (m : List α) (hm : ∀ a ∈ m, a ∈ l) :
          m.filter (fun a => key' a = key' b) = m.filter fun a => key a = key b := by
        apply List.filter_congr
        intro a ha
        simp only [heq (hm a ha) hb]
      rw [hsame r fun a ha => h.mem_iff.1 ha, hsame l fun a ha => ha, h.stable]
    · have hnone (m : List α) (hm : ∀ a ∈ m, a ∈ l) : m.filter (fun a => key' a = k) = [] := by
        rw [List.filter_eq_nil_iff]
        intro a ha hak
        exact hk ⟨a, hm a ha, by simpa using hak⟩
      rw [hnone r fun a ha => h.mem_iff.1 ha, hnone l fun a ha => ha]

end RankedBy

theorem mergeSort_rankedBy {le : α → α → Bool} (hle : ∀ a b, le a b = true ↔ key b ≤ key a) (l : List α) :
    RankedBy key l (l.mergeSort le) := by
  have htrans (a b c : α) : le a b = true → le b c = true → le a c = true := by
    simp only [hle]
    exact fun hab hbc => hbc.trans hab
  have htotal (a b : α) : (le a b || le b a) = true := by
    simp only [Bool.or_eq_true, hle]
    exact le_total _ _
  refine ⟨?_, fun k => ?_⟩
  · simpa only [hle] using List.pairwise_mergeSort htrans htotal l
  · -- the items of one key are a sorted part of the list, which a stable sort leaves together in order
    have hpart : (l.filter fun a => key a = k).Pairwise fun a b => le a b = true := by
      refine List.Pairwise.imp_of_mem (fun {a b} ha hb _ => ?_) (List.pairwise_of_forall fun _ _ => trivial)
      have ha := (List.mem_filter.1 ha).2
      have hb := (List.mem_filter.1 hb).2
      simp only [decide_eq_true_eq] at ha hb
      rw [hle, ha, hb]
    have hsub := (List.sublist_mergeSort htrans htotal hpart List.filter_sublist).filter fun a => decide (key a = k)
    rw [List.filter_filter] at hsub
    simp only [Bool.and_self] at hsub
    exact (hsub.eq_of_length ((List.mergeSort_perm l _).filter _).length_eq.symm).symm

end Stable

section Blocks

variable {α κ : Type} [DecidableEq κ] {l : List α}

theorem filter_append_filter_not {p : α → Bool} (h : l.Pairwise fun a b => p b = true → p a = true) :
    l.filter p ++ l.filter (fun a => !p a) = l := by
  induction l with
  | nil => rfl
  | cons a l ih =>
    obtain ⟨ha, hl⟩ := List.pairwise_cons.1 h
    cases hp : p a with
    | true => simp [hp, ih hl]
    | false =>
      have hrest : ∀ b ∈ l, p b = false := by
        intro b hb
        by_contra hpb
        rw [ha b hb (by simpa using hpb)] at hp
        cases hp
      have hnone : l.filter p = [] := by simpa using hrest
      have hall : l.filter (fun b => !p b) = l := by simpa using hrest
      simp [hp, hnone, hall]

/-- A list along which the place of the key does not fall is made of one block for each key. -/
theorem flatMap_filter_of_rising {key : α → κ} (place : κ → Nat) {keys : List κ}
    (hkeys : keys.Pairwise fun j k => place j < place k) (hmem : ∀ a ∈ l, key a ∈ keys)
    (hl : l.Pairwise fun a b => place (key a) ≤ place (key b)) :
    (keys.flatMap fun k => l.filter fun a => key a = k) = l := by
  induction keys generalizing l with
  | nil =>
    cases l with
    | nil => rfl
    | cons a l => exact absurd (hmem a List.mem_cons_self) List.not_mem_nil
  | cons k keys ih =>
    obtain ⟨hk, hkeys⟩ := List.pairwise_cons.1 hkeys
    have hcut := filter_append_filter_not (p := fun a => key a = k) <| by
      refine hl.imp_of_mem fun {a b} ha hb hle hbk => ?_
      rw [decide_eq_true_eq] at hbk ⊢
      by_contra hne
      have hlater : place k < place (key a) := hk _ ((List.mem_cons.1 (hmem a ha)).resolve_left hne)
      rw [hbk] at hle
      omega
    -- the blocks of the other keys are those of the rest
    have hrest : keys.flatMap (fun j => l.filter fun a => key a = j) = l.filter fun a => !decide (key a = k) := by
      rw [← ih hkeys (l := l.filter fun a => !decide (key a = k))]
      · apply List.flatMap_congr
        intro j hj
        rw [List.filter_filter]
        apply List.filter_congr
        intro a _
        have hjk : j ≠ k := by
          rintro rfl
          exact absurd (hk j hj) (lt_irrefl _)
        by_cases haj : key a = j <;> simp [haj, hjk]
      · intro a ha
        obtain ⟨ha, hne⟩ := List.mem_filter.1 ha
        exact (List.mem_cons.1 (hmem a ha)).resolve_left (by simpa using hne)
      · exact hl.filter _
    rw [List.flatMap_cons, hrest]
    exact hcut

end Blocks

theorem rank_rankedBy (l : List Issue) : RankedBy (fun i => orderKey i.score) l (rank l) :=
  mergeSort_rankedBy (fun _ _ => decide_eq_true_iff) l

theorem rank_filter (p : Issue → Bool) (l : List Issue) : (rank l).filter p = rank (l.filter p) :=
  ((rank_rankedBy l).filter p).unique (rank_rankedBy (l.filter p))

end Granularity
