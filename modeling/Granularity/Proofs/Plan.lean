import Granularity.Proofs.Accounting
import Granularity.Proofs.Ties

/-!
The plan of action as a cut of the ranking. The plan collects each tier in a pass of its own over the whole list. A
higher score is never in a less urgent tier, so that in a ranking the issues of a tier stand together, and what the
plan quotes of them is at the top.
-/

namespace Granularity

open Binary64

def Tier.place (t : Tier) : Nat :=
  all.idxOf t

theorem Tier.mem_all (t : Tier) : t ∈ all := by
  cases t <;> decide

theorem Tier.all_rising : all.Pairwise fun t u => t.place < u.place := by
  decide

theorem Tier.place_ofScore_le {x y : Float} (h : x ≤ y) : (ofScore y).place ≤ (ofScore x).place := by
  have hreach (limit : Float) : limit ≤ x → limit ≤ y := fun hx => le_trans hx h
  have height := hreach 8
  have hsix := hreach 6
  have hfour := hreach 4
  unfold ofScore
  split_ifs <;> simp_all [place, all]

/-- An entry of the plan covers a stretch of issues: all are in its tier, and it quotes the first of them. -/
structure Fix.Covers (f : Fix) (segment : List Issue) : Prop where
  counted : f.count = segment.length
  pos : 0 < f.count
  tier : ∀ i ∈ segment, Tier.ofScore i.score = f.tier
  action : f.action = f.tier.action
  quoted : f.issues = (segment.take (min f.count f.tier.previewLimit)).map Issue.description
  top : ∀ i ∈ segment.take (min f.count f.tier.previewLimit),
    ∀ j ∈ segment.drop (min f.count f.tier.previewLimit), j.score ≤ i.score

theorem le_of_mem_take_drop {l : List Issue} (h : l.Pairwise fun i j => j.score ≤ i.score) (n : Nat) :
    ∀ i ∈ l.take n, ∀ j ∈ l.drop n, j.score ≤ i.score := by
  rw [← List.take_append_drop n l, List.pairwise_append] at h
  exact h.2.2

theorem Fix.covers_of_ofTier? {l : List Issue} {t : Tier} {f : Fix} (hf : Fix.ofTier? l t = some f)
    (h : l.Pairwise fun i j => j.score ≤ i.score) : f.Covers (l.filter fun i => Tier.ofScore i.score = t) := by
  have hmembers : (l.filter fun i => Tier.ofScore i.score == t) = l.filter fun i => Tier.ofScore i.score = t := by
    apply List.filter_congr
    intro i _
    rw [beq_eq_decide]
  simp only [ofTier?, hmembers] at hf
  generalize hsegment : (l.filter fun i => Tier.ofScore i.score = t) = segment at hf
  split at hf
  · cases hf
  · next hne =>
    cases hf
    constructor
    · rfl
    · exact List.length_pos_iff.2 (by simpa using hne)
    · intro i hi
      rw [← hsegment] at hi
      simpa using (List.mem_filter.1 hi).2
    · rfl
    · simp only
      rw [Nat.min_comm, List.take_eq_take_min]
    · apply le_of_mem_take_drop
      rw [← hsegment]
      exact h.filter _

theorem forall₂_covers {l : List Issue} (h : l.Pairwise fun i j => j.score ≤ i.score) (ts : List Tier) :
    ∃ segments, segments.flatten = (ts.flatMap fun t => l.filter fun i => Tier.ofScore i.score = t) ∧
      List.Forall₂ Fix.Covers (ts.filterMap (Fix.ofTier? l)) segments := by
  induction ts with
  | nil => exact ⟨[], rfl, .nil⟩
  | cons t ts ih =>
    obtain ⟨segments, hflatten, hcovers⟩ := ih
    cases hf : Fix.ofTier? l t with
    | none =>
      have hnone : (l.filter fun i => Tier.ofScore i.score = t) = [] := by
        have hcount := ofTier?_eq_none.1 hf
        rw [tierCount, List.length_eq_zero_iff] at hcount
        simpa using hcount
      refine ⟨segments, ?_, ?_⟩
      · rw [hflatten, List.flatMap_cons, hnone, List.nil_append]
      · rwa [List.filterMap_cons_none hf]
    | some f =>
      refine ⟨(l.filter fun i => Tier.ofScore i.score = t) :: segments, ?_, ?_⟩
      · rw [List.flatten_cons, hflatten, List.flatMap_cons]
      · rw [List.filterMap_cons_some hf]
        exact .cons (Fix.covers_of_ofTier? hf h) hcovers

theorem prioritize_rising (l : List Issue) : (prioritize l).Pairwise fun f g => f.tier.place < g.tier.place := by
  apply Tier.all_rising.filterMap
  intro t u htu f hf g hg
  rw [(ofTier?_eq_some hf).1, (ofTier?_eq_some hg).1]
  exact htu

/-- The plan for a ranking cuts it into stretches, one for each tier that occurs, most urgent first; and whatever the
order of a list, its plan counts every issue once. -/
theorem prioritize_cuts (l : List Issue) (h : ∀ i ∈ l, i.score.isNaN = false) :
    (prioritize (rank l)).Pairwise (fun f g => f.tier.place < g.tier.place) ∧
      (∃ segments, segments.flatten = rank l ∧ List.Forall₂ Fix.Covers (prioritize (rank l)) segments) ∧
      ∀ l' : List Issue, ((prioritize l').map Fix.count).sum = l'.length := by
  have hfalling := (rank_keepsTies h).falling
  refine ⟨prioritize_rising _, ?_, ?_⟩
  · obtain ⟨segments, hflatten, hcovers⟩ := forall₂_covers hfalling Tier.all
    refine ⟨segments, ?_, hcovers⟩
    rw [hflatten]
    apply flatMap_filter_of_rising Tier.place Tier.all_rising
    · exact fun i _ => Tier.mem_all _
    · exact hfalling.imp Tier.place_ofScore_le
  · intro l'
    rw [prioritize, sum_count_ofTier?, sum_tierCount]

def scoredIssue (description : String) (score : Float) : Issue where
  severity := .medium
  kind := .crossAccess
  description
  schema := "StoreRow"
  container := "rows"
  missing := []
  files := []
  recommendations := []
  score

def mixedIssue : Nat → Issue
  | 0 => scoredIssue "none" (-0.0)
  | 1 => scoredIssue "half" 4.5
  | 2 => scoredIssue "below" (-1 / 0)
  | 3 => scoredIssue "least" 4
  | 4 => scoredIssue "more" 5
  | 5 => scoredIssue "above" (1 / 0)
  | 6 => scoredIssue "nothing" 0
  | _ => scoredIssue "most" 5.5

/-- Both zeros, both infinities, a boundary and more of a tier than is quoted; no issue is in the second tier. -/
def mixedIssues : List Issue := (List.range 8).map mixedIssue

theorem rank_mixedIssues : rank mixedIssues = [5, 7, 4, 1, 3, 6, 0, 2].map mixedIssue := by
  have hperm : [5, 7, 4, 1, 3, 6, 0, 2].Perm (List.range 8) := by decide
  apply (rank_rankedBy mixedIssues).unique
  apply RankedBy.of_perm (hperm.map mixedIssue)
  rw [List.pairwise_map]
  decide +kernel

theorem prioritize_cuts_mixedIssues :
    (∀ i ∈ mixedIssues, i.score.isNaN = false) ∧
      (prioritize (rank mixedIssues)).map (fun f => (f.tier, f.count, f.issues)) =
        [(.critical, 1, ["above"]), (.medium, 4, ["most", "more", "half"]), (.low, 3, [])] ∧
      (prioritize (rank mixedIssues)).Pairwise (fun f g => f.tier.place < g.tier.place) ∧
      (∃ segments, segments.flatten = [5, 7, 4, 1, 3, 6, 0, 2].map mixedIssue ∧
        List.Forall₂ Fix.Covers (prioritize (rank mixedIssues)) segments) ∧
      ((prioritize mixedIssues).map Fix.count).sum = 8 := by
  have hnumbers : ∀ i ∈ mixedIssues, i.score.isNaN = false := by decide +kernel
  obtain ⟨hrising, hcut, hsum⟩ := prioritize_cuts mixedIssues hnumbers
  rw [rank_mixedIssues] at hrising hcut ⊢
  exact ⟨hnumbers, by decide +kernel, hrising, hcut, hsum mixedIssues⟩

end Granularity
