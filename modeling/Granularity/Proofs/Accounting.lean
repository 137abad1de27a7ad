import Granularity.Report.Basic
import Mathlib.Algebra.GroupWithZero.Nat
import Mathlib.Data.List.Basic

namespace Granularity

/-- The last list is put together from the three others, each in its order. -/
inductive Interleaved {α : Type} : List α → List α → List α → List α → Prop where
  | nil : Interleaved [] [] [] []
  | first {xs ys zs l : List α} (x : α) : Interleaved xs ys zs l → Interleaved (x :: xs) ys zs (x :: l)
  | second {xs ys zs l : List α} (y : α) : Interleaved xs ys zs l → Interleaved xs (y :: ys) zs (y :: l)
  | third {xs ys zs l : List α} (z : α) : Interleaved xs ys zs l → Interleaved xs ys (z :: zs) (z :: l)

theorem Interleaved.length_filter {α : Type} {xs ys zs l : List α} (h : Interleaved xs ys zs l) (p : α → Bool) :
    (l.filter p).length = (xs.filter p).length + (ys.filter p).length + (zs.filter p).length := by
  induction h with
  | nil => rfl
  | first x _ ih | second x _ ih | third x _ ih =>
    cases hx : p x <;> simp only [List.filter_cons, hx, if_true, Bool.false_eq_true, if_false, List.length_cons] <;>
      omega

theorem interleaved_severities (l : List Issue) :
    Interleaved (l.filter (·.severity == .high)) (l.filter (·.severity == .medium))
      (l.filter (·.severity == .low)) l := by
  induction l with
  | nil => exact .nil
  | cons i l ih =>
    cases hi : i.severity with
    | high => simpa [List.filter_cons, hi] using ih.first i
    | medium => simpa [List.filter_cons, hi] using ih.second i
    | low => simpa [List.filter_cons, hi] using ih.third i

/-- How many issues of a list are in a tier. -/
def tierCount (l : List Issue) (t : Tier) : Nat :=
  (l.filter fun i => Tier.ofScore i.score == t).length

theorem sum_tierCount (l : List Issue) : (Tier.all.map (tierCount l)).sum = l.length := by
  induction l with
  | nil => rfl
  | cons i l ih =>
    have hadd (t : Tier) : tierCount (i :: l) t = tierCount l t + if Tier.ofScore i.score = t then 1 else 0 := by
      by_cases ht : Tier.ofScore i.score = t <;> simp [tierCount, ht]
    simp only [Tier.all, List.map_cons, List.map_nil, List.sum_cons, List.sum_nil] at ih ⊢
    simp only [hadd, List.length_cons]
    cases Tier.ofScore i.score <;> simp only [reduceCtorEq, if_true, if_false] <;> omega

theorem ofTier?_eq_none {l : List Issue} {t : Tier} : Fix.ofTier? l t = none ↔ tierCount l t = 0 := by
  unfold Fix.ofTier? tierCount
  cases l.filter fun i => Tier.ofScore i.score == t <;> simp

theorem ofTier?_eq_some {l : List Issue} {t : Tier} {f : Fix} (h : Fix.ofTier? l t = some f) :
    f.tier = t ∧ f.count = tierCount l t := by
  simp only [Fix.ofTier?] at h
  split at h
  · cases h
  · cases h
    exact ⟨rfl, rfl⟩

theorem sum_count_ofTier? (l : List Issue) (ts : List Tier) :
    ((ts.filterMap (Fix.ofTier? l)).map Fix.count).sum = (ts.map (tierCount l)).sum := by
  induction ts with
  | nil => rfl
  | cons t ts ih =>
    rw [List.map_cons, List.sum_cons, ← ih]
    cases ht : Fix.ofTier? l t with
    | none => rw [List.filterMap_cons_none ht, ofTier?_eq_none.1 ht, Nat.zero_add]
    | some f => rw [List.filterMap_cons_some ht, List.map_cons, List.sum_cons, (ofTier?_eq_some ht).2]

/-- What a plan counts in a tier; a tier that it leaves out has nothing. -/
def plannedCount (plan : List Fix) (t : Tier) : Nat :=
  ((plan.find? (·.tier == t)).map Fix.count).getD 0

theorem find?_prioritize (l : List Issue) (t : Tier) : (prioritize l).find? (·.tier == t) = Fix.ofTier? l t := by
  have hentry (u : Tier) : (Fix.ofTier? l u).any (·.tier == t) = (u == t && (Fix.ofTier? l u).isSome) := by
    cases hu : Fix.ofTier? l u with
    | none => simp
    | some f => simp [(ofTier?_eq_some hu).1]
  have hmem : t ∈ Tier.all := by cases t <;> decide
  rw [prioritize, List.find?_filterMap]
  simp only [hentry]
  cases ht : Fix.ofTier? l t with
  | none =>
    rw [List.find?_eq_none.2]
    · rfl
    · intro u _ hu
      obtain ⟨heq, hsome⟩ : u = t ∧ (Fix.ofTier? l u).isSome = true := by simpa using hu
      rw [heq, ht] at hsome
      cases hsome
  | some f =>
    cases hfind : Tier.all.find? fun u => u == t && (Fix.ofTier? l u).isSome with
    | none => exact absurd (List.find?_eq_none.1 hfind t hmem) (by simp [ht])
    | some u =>
      have hu : u = t := by
        have := List.find?_some hfind
        simp only [Bool.and_eq_true, beq_iff_eq] at this
        exact this.1
      rw [hu]
      exact ht

theorem plannedCount_prioritize (l : List Issue) (t : Tier) : plannedCount (prioritize l) t = tierCount l t := by
  rw [plannedCount, find?_prioritize]
  cases ht : Fix.ofTier? l t with
  | none => exact (ofTier?_eq_none.1 ht).symm
  | some f => exact (ofTier?_eq_some ht).2

namespace Report

/-- The number of issues is that of the list, of the severities together and of the tiers together. -/
structure Adds (r : Report) : Prop where
  listed : r.counts.issues = r.issues.length
  severities : r.counts.issues = r.counts.high + r.counts.medium + r.counts.low
  planned : r.counts.issues = (r.fixes.map Fix.count).sum

/-- The counts that are not about issues are the same. -/
structure SameSources (r s : Report) : Prop where
  schemas : r.counts.schemas = s.counts.schemas
  containers : r.counts.containers = s.counts.containers
  accessors : r.counts.accessors = s.counts.accessors
  skipped : r.counts.skipped = s.counts.skipped

/-- The counts that are not about issues are those of the run. -/
structure TakenFrom (report : Report) (r : Results) : Prop where
  schemas : report.counts.schemas = r.models.schemas.size
  containers : report.counts.containers = (r.models.containers.values.map List.length).sum
  accessors : report.counts.accessors = (r.models.accessors.values.map List.length).sum
  skipped : report.counts.skipped = r.warnings.length

/-- The reports of the three severities share out the report of all issues. -/
structure SharedOut (whole : Report) (part : Severity → Report) : Prop where
  severity : ∀ s, ∀ i ∈ (part s).issues, i.severity = s
  sublist : ∀ s, (part s).issues.Sublist whole.issues
  disjoint : ∀ s s', s ≠ s' → (part s).issues.Disjoint (part s').issues
  interleaved : Interleaved (part .high).issues (part .medium).issues (part .low).issues whole.issues
  high : whole.counts.high = (part .high).counts.issues
  medium : whole.counts.medium = (part .medium).counts.issues
  low : whole.counts.low = (part .low).counts.issues
  tiers : ∀ t, plannedCount whole.fixes t =
    plannedCount (part .high).fixes t + plannedCount (part .medium).fixes t + plannedCount (part .low).fixes t
  sources : ∀ s, (part s).SameSources whole

theorem build_adds (r : Results) (f : Option Severity) : (build r f).Adds where
  listed := rfl
  severities := by
    have h := (interleaved_severities (filterBySeverity f r.issues)).length_filter fun _ => true
    simp only [List.filter_true] at h
    exact h
  planned := by
    change (filterBySeverity f r.issues).length = ((prioritize (filterBySeverity f r.issues)).map Fix.count).sum
    rw [prioritize, sum_count_ofTier?, sum_tierCount]

theorem build_takenFrom (r : Results) (f : Option Severity) : (build r f).TakenFrom r where
  schemas := rfl
  containers := List.length_flatten
  accessors := List.length_flatten
  skipped := rfl

theorem severity_of_mem_build {r : Results} {s : Severity} {i : Issue} (h : i ∈ (build r (some s)).issues) :
    i.severity = s := by
  have hmem : i ∈ r.issues.filter (·.severity == s) := h
  simpa using (List.mem_filter.1 hmem).2

theorem build_sharedOut (r : Results) : (build r none).SharedOut fun s => build r (some s) where
  severity _ _ h := severity_of_mem_build h
  sublist _ := List.filter_sublist
  disjoint s s' hne := by
    intro i hi hi'
    apply hne
    rw [← severity_of_mem_build hi, severity_of_mem_build hi']
  interleaved := interleaved_severities r.issues
  high := rfl
  medium := rfl
  low := rfl
  tiers t := by
    have h := (interleaved_severities r.issues).length_filter fun i => Tier.ofScore i.score == t
    simp only [build, plannedCount_prioritize]
    exact h
  sources _ := ⟨rfl, rfl, rfl, rfl⟩

/-- Every report adds up, whatever it is filtered by, and those of the three severities share out the whole, which has
all issues of the run. -/
theorem build_accounts (r : Results) :
    (∀ f, (build r f).Adds ∧ (build r f).TakenFrom r) ∧ (build r none).issues = r.issues ∧
      (build r none).SharedOut fun s => build r (some s) :=
  ⟨fun f => ⟨build_adds r f, build_takenFrom r f⟩, rfl, build_sharedOut r⟩

end Report

end Granularity
