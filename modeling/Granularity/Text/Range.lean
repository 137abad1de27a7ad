namespace Granularity.Text

abbrev Ranges := List (Nat × Nat)

def Ranges.contains (table : Ranges) (n : Nat) : Bool :=
  table.any fun r => r.1 ≤ n && n ≤ r.2

theorem Ranges.contains_iff (table : Ranges) (n : Nat) :
    table.contains n = true ↔ ∃ r ∈ table, r.1 ≤ n ∧ n ≤ r.2 := by
  simp [Ranges.contains]

end Granularity.Text
