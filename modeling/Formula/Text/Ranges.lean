/-!
Sets of code points, given by closed ranges in increasing order.
-/

namespace Formula.Text

/-- Whether `n` lies in one of the ranges; the search ends at the first range that starts above
it. -/
def inRanges (n : Nat) : List (Nat × Nat) → Bool
  | [] => false
  | (low, high) :: rest => low ≤ n && (n ≤ high || inRanges n rest)

/-- The range that holds `n`. -/
def rangeOf? (n : Nat) : List (Nat × Nat) → Option (Nat × Nat)
  | [] => none
  | (low, high) :: rest =>
    if n < low then none else if n ≤ high then some (low, high) else rangeOf? n rest

theorem rangeOf?_isSome (n : Nat) (ranges : List (Nat × Nat)) :
    (rangeOf? n ranges).isSome = inRanges n ranges := by
  induction ranges with
  | nil => rfl
  | cons range rest ih =>
    obtain ⟨low, high⟩ := range
    by_cases below : n < low
    · simp [rangeOf?, inRanges, below, Nat.not_le.mpr below]
    · by_cases inside : n ≤ high
      · simp [rangeOf?, inRanges, below, inside, Nat.not_lt.mp below]
      · simp [rangeOf?, inRanges, below, inside, Nat.not_lt.mp below, ih]

end Formula.Text
