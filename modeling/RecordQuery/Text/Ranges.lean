/-!
# Sets of code points as runs

A character property is given as the runs of code points that have it.
-/

namespace RecordQuery.Text

/-- Runs of code points, each given by its first and its last member. -/
abbrev Ranges := List (Nat × Nat)

/-- Whether some run holds the code point. -/
def Ranges.contains (ranges : Ranges) (code : Nat) : Bool :=
  ranges.any fun (first, last) => first ≤ code && code ≤ last

theorem Ranges.contains_iff (ranges : Ranges) (code : Nat) :
    ranges.contains code = true ↔ ∃ range ∈ ranges, range.1 ≤ code ∧ code ≤ range.2 := by
  simp [Ranges.contains]

end RecordQuery.Text
