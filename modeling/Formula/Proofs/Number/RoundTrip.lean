import Formula.Proofs.Number.Exact
import Formula.Proofs.Number.Scientific

/-!
Numbers and their texts. Main statement: a number is read back from its text, and a whole one is
written with the digits of its value alone.
-/

namespace Formula.Number

open Text

/-- No digits but a zero alone begin with a zero. -/
theorem toDigits_head (n : Nat) :
    Nat.toDigits 10 n = ['0'] ∨ (Nat.toDigits 10 n).head? ≠ some '0' := by
  induction n using Nat.strongRecOn with
  | ind n ih =>
    rw [Nat.toDigits_eq_if (by decide)]
    split
    · rename_i small
      have : ∀ d < 10, [Nat.digitChar d] = ['0'] ∨ [Nat.digitChar d].head? ≠ some '0' := by decide
      exact this n small
    · rename_i large
      right
      have nonzero : 0 < n / 10 := by omega
      have nonempty : Nat.toDigits 10 (n / 10) ≠ [] := Nat.toDigits_ne_nil
      rw [List.head?_append_of_ne_nil _ nonempty]
      rcases ih (n / 10) (by omega) with zero | other
      · have value := Nat.ofDigitChars_ten_toDigits (n := n / 10)
        rw [zero] at value
        have : Nat.ofDigitChars 10 ['0'] 0 = 0 := rfl
        omega
      · exact other

/-- The text of a magnitude is read as the magnitude, behind either sign. -/
theorem ofNumeral?_toChars (negative : Bool) (rank : Fin magnitudes) :
    ofNumeral? negative (Number.finite false rank).toChars = some (.finite negative rank) := by
  cases whole : whole? rank with
  | some n =>
    have text : (Number.finite false rank).toChars = Nat.toDigits 10 n := by
      simp [toChars, whole, signed]
    rw [text, ofNumeral?_whole?_digits rank.isLt negative whole]
  | none =>
    have text : (Number.finite false rank).toChars = fractionText rank := by
      simp [toChars, whole, signed]
    obtain ⟨m, power, digits, back, ascii, writes, length, form⟩ := exists_fractionText whole
    split at form
    · have simple : ∀ c ∈ fractionText rank, c.isDigit ∨ c = '.' := by
        rw [form]
        exact positional_simple ascii _
      rw [text, ofNumeral?_fractionText rank.isLt negative whole simple]
    · rename_i small
      rw [text, form, ofNumeral?_scientific_fraction rank.isLt negative whole back ascii writes
        length small]

/-- A sign in front of a digit is taken as the sign of the number. -/
theorem ofText?_signed (negative : Bool) {c : Char} (digit : c.isDigit) (rest : List Char) :
    ofText? (signed negative (c :: rest)) = ofNumeral? negative (c :: rest) := by
  cases negative with
  | false => exact ofText?_numeral (isNumeral_of_isDigit digit) rest
  | true =>
    have noLetter := isLetter_of_isNumeral (isNumeral_of_isDigit digit)
    have noName (d : Char) (letter : isLetter d) : c.toLower ≠ d := by
      intro lower
      rw [isLetter_of_toLower lower letter] at noLetter
      cases noLetter
    have noInfinity : c.toLower ≠ 'i' := noName 'i' (by decide)
    have noNan : c.toLower ≠ 'n' := noName 'n' (by decide)
    simp [signed, ofText?, takeSign, noInfinity, noNan]

/-- The sign of a zero is not written. -/
theorem toChars_finite (negative : Bool) (rank : Fin magnitudes) :
    (Number.finite negative rank).toChars =
      signed (negative && rank.val != 0) (Number.finite false rank).toChars := by
  cases whole : whole? rank with
  | some n =>
    have zero : (n != 0) = (rank.val != 0) := by
      have exact := whole?_eq_some.mp whole
      have zeros : n = 0 ↔ rank.val = 0 := by
        have zero : value rank = 0 ↔ rank.val = 0 := value_eq_zero
        rwa [exact, Nat.cast_eq_zero] at zero
      rw [Bool.eq_iff_iff, bne_iff_ne, bne_iff_ne]
      exact not_congr zeros
    simp [toChars, whole, signed, zero]
  | none =>
    have nonzero : rank.val ≠ 0 := by
      intro zero
      apply whole?_eq_none.mp whole 0
      rw [value_eq_zero.mpr zero, Nat.cast_zero]
    simp [toChars, whole, signed, nonzero]

theorem ofText?_toChars_finite (negative : Bool) (rank : Fin magnitudes) :
    ofText? (Number.finite negative rank).toChars =
      some (.finite (negative && rank.val != 0) rank) := by
  obtain ⟨c, rest, head, digit⟩ := (written_toChars rank).1.exists_cons
  have read := ofNumeral?_toChars (negative && rank.val != 0) rank
  rw [toChars_finite, head, ofText?_signed _ digit, ← head, read]

theorem ofText?_toChars_infinite (negative : Bool) :
    ofText? (Number.infinite negative).toChars = some (.infinite negative) := by
  cases negative <;> decide

/-- A number but NaN is read back from its text up to the sign of a zero. A whole number is written
with the digits of its value, without zeros in front, behind a minus sign if it is negative. -/
theorem text_round_trip (x : Number) :
    (x ≠ .nan → ∃ y, ofText? x.text.toList = some y ∧ y.same x) ∧
    ∀ k : Int, x.exactValue? = some (k : ℚ) → ∃ digits,
      x.text.toList = (if k < 0 then '-' :: digits else digits) ∧ (∀ c ∈ digits, c.isDigit) ∧
      Nat.ofDigitChars 10 digits 0 = k.natAbs ∧
      (digits = ['0'] ∨ digits ≠ [] ∧ digits.head? ≠ some '0') := by
  rw [text, String.toList_ofList]
  constructor
  · intro number
    cases x with
    | nan => exact absurd rfl number
    | infinite negative =>
      exact ⟨_, ofText?_toChars_infinite negative, by simp [same]⟩
    | finite negative rank =>
      refine ⟨_, ofText?_toChars_finite negative rank, ?_⟩
      by_cases zero : rank.val = 0
      · simp [same, zero]
      · simp [same, zero]
  · intro k exact
    cases x with
    | nan => cases exact
    | infinite negative => cases exact
    | finite negative rank =>
      refine ⟨Nat.toDigits 10 k.natAbs, ?_, ?_, Nat.ofDigitChars_ten_toDigits, ?_⟩
      · have whole := whole?_of_exact exact
        have unsigned : (Number.finite false rank).toChars = Nat.toDigits 10 k.natAbs := by
          simp [toChars, whole, signed]
        have sign : (negative && rank.val != 0) = decide (k < 0) := by
          have sign := isNegative_iff exact
          rw [Int.cast_lt_zero] at sign
          rw [Bool.eq_iff_iff, decide_eq_true_iff, ← sign]
          rfl
        rw [toChars_finite, unsigned, sign, signed]
        simp
      · intro c mem
        exact Nat.isDigit_of_mem_toDigits (by decide) (by decide) mem
      · rcases toDigits_head k.natAbs with zero | other
        · exact .inl zero
        · exact .inr ⟨Nat.toDigits_ne_nil, other⟩

end Formula.Number
