import Formula.Number.Arithmetic
import Formula.Proofs.Number.Rounding

/-!
The exact values of numbers. Main statements: zeros, whole and odd numbers are told by the exact
value, and so is the sign of a number that is not zero.
-/

namespace Formula.Number

/-- The value of a finite number. -/
def exactValue? : Number → Option ℚ
  | .finite negative rank => some (if negative then -value rank else value rank)
  | _ => none

theorem value_nonneg (rank : Nat) : 0 ≤ value rank := by
  unfold value
  positivity

theorem value_eq_zero {rank : Nat} : value rank = 0 ↔ rank = 0 := by
  constructor
  · intro zero
    rw [← rankOf_value rank, zero]
    rfl
  · rintro rfl
    simp [value, significand]

section Finite

variable {negative : Bool} {rank : Fin magnitudes}

theorem abs_exact {q : ℚ} (exact : (Number.finite negative rank).exactValue? = some q) :
    |q| = value rank := by
  obtain rfl := Option.some.inj exact
  split
  · rw [abs_neg, abs_of_nonneg (value_nonneg rank)]
  · rw [abs_of_nonneg (value_nonneg rank)]

theorem whole?_of_exact {k : Int} (exact : (Number.finite negative rank).exactValue? = some (k : ℚ)) :
    whole? rank = some k.natAbs := by
  rw [whole?_eq_some, ← abs_exact exact, Nat.cast_natAbs, Int.cast_abs]

theorem exact_of_whole? {n : Nat} (whole : whole? rank = some n) :
    (Number.finite negative rank).exactValue? = some (((if negative then -n else n : Int)) : ℚ) := by
  rw [exactValue?, whole?_eq_some.mp whole]
  cases negative <;> simp

end Finite

variable {x : Number}

theorem isFinite_iff : x.isFinite ↔ ∃ q, x.exactValue? = some q := by
  cases x <;> simp [isFinite, exactValue?]

theorem isZero_iff : x.isZero ↔ x.exactValue? = some 0 := by
  cases x with
  | finite negative rank => cases negative <;> simp [isZero, exactValue?, value_eq_zero]
  | nan => simp [isZero, exactValue?]
  | infinite negative => simp [isZero, exactValue?]

theorem isInteger_iff : x.isInteger ↔ ∃ k : Int, x.exactValue? = some (k : ℚ) := by
  cases x with
  | finite negative rank =>
    constructor
    · intro integer
      obtain ⟨n, whole⟩ := Option.isSome_iff_exists.mp integer
      exact ⟨_, exact_of_whole? whole⟩
    · rintro ⟨k, exact⟩
      simp [isInteger, whole?_of_exact exact]
  | nan => simp [isInteger, exactValue?]
  | infinite negative => simp [isInteger, exactValue?]

/-- The parity is that of the exact value, whatever its sign. -/
theorem isOddInteger_iff : x.isOddInteger ↔ ∃ k : Int, Odd k ∧ x.exactValue? = some (k : ℚ) := by
  cases x with
  | finite negative rank =>
    constructor
    · intro odd
      obtain ⟨n, whole, odd⟩ := (Option.any_eq_true _ _).mp odd
      refine ⟨_, ?_, exact_of_whole? whole⟩
      have : Odd (n : Int) := by
        rw [Int.odd_coe_nat, Nat.odd_iff]
        simpa using odd
      split
      · exact this.neg
      · exact this
    · rintro ⟨k, odd, exact⟩
      have : k.natAbs % 2 = 1 := Nat.odd_iff.mp (Int.natAbs_odd.mpr odd)
      simp [isOddInteger, whole?_of_exact exact, this]
  | nan => simp [isOddInteger, exactValue?]
  | infinite negative => simp [isOddInteger, exactValue?]

/-- The sign bit counts, but not that of a zero. -/
theorem isNegative_iff {q : ℚ} (exact : x.exactValue? = some q) :
    (x.isNegative && !x.isZero) ↔ q < 0 := by
  have zero : x.isZero ↔ q = 0 := by rw [isZero_iff, exact, Option.some_inj]
  by_cases here : q = 0
  · simp [here, zero.mpr here]
  · cases x with
    | finite negative rank =>
      have positive : 0 < value rank := by
        rw [← abs_exact exact]
        exact abs_pos.mpr here
      obtain rfl := Option.some.inj exact
      cases negative <;> simp [isNegative, mt zero.mp here, positive, positive.le]
    | nan => cases exact
    | infinite negative => cases exact

end Formula.Number
