import Granularity.Settings.Basic
import Mathlib.Data.List.Basic

namespace Granularity

/-- No weight is at fault and no name is. -/
structure Settings.Accepted (s : Settings) : Prop where
  weights : ∀ e ∈ s.weights.named, Weights.isSound e.2 = true
  identifiers : ∀ e ∈ s.conventions.identifiers, isIdentifier e.2 = true

theorem Conventions.identifiers_of_fault? {c : Conventions} (h : c.fault? = none) :
    ∀ e ∈ c.identifiers, isIdentifier e.2 = true := by
  rw [fault?] at h
  split at h
  · cases h
  · next hidentifiers =>
    intro e he
    simpa using List.find?_eq_none.1 hidentifiers e he

theorem Settings.accepted_of_validate {s s' : Settings} (h : s.validate = .ok s') : s.Accepted := by
  have hfault : s.fault? = none := by
    rw [validate] at h
    split at h
    · cases h
    · assumption
  rw [fault?] at hfault
  split at hfault
  · cases hfault
  · next hweights =>
    refine ⟨fun e he => ?_, Conventions.identifiers_of_fault? hfault⟩
    simpa using List.find?_eq_none.1 hweights e he

theorem isIdentifier_iff (s : String) : isIdentifier s = true ↔
    s.toList ≠ [] ∧ ∀ c ∈ s.toList, c.isAlphanum = true ∨ c = '_' := by
  simp [isIdentifier]

end Granularity
