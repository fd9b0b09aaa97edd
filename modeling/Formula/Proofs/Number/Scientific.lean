import Formula.Proofs.Number.Decimal

/-!
Texts with an exponent, and texts of numbers in general. Main statements: a number without sign is
read from its text as itself, so different numbers have different texts; and what characters such a
text is made of.
-/

namespace Formula.Number

open Text

/-- What is less than half of the least magnitude is rounded to zero. -/
theorem rankOf_eq_zero {q : ℚ} (positive : 0 < q) (small : q < 2 ^ (-1075 : Int)) :
    rankOf q = 0 := by
  have order := log_lt positive small
  have least : grid q = -1074 := by
    unfold grid
    omega
  have half : q / 2 ^ (-1074 : Int) < 1 / 2 := by
    rw [div_lt_iff₀ (zpow_pos two_pos _)]
    calc q < 2 ^ (-1075 : Int) := small
      _ = 2 ^ (-1074 : Int) * 2⁻¹ := zpow_sub_one₀ two_ne_zero (-1074)
      _ = 1 / 2 * 2 ^ (-1074 : Int) := by ring
  have floor : ⌊q / 2 ^ (-1074 : Int)⌋₊ = 0 := Nat.floor_eq_zero.mpr (by linarith)
  rw [rankOf, if_neg positive.ne', least, roundEven, floor, Nat.cast_zero, sub_zero, if_pos half]
  rfl

theorem ten_pow_le : (10 : ℚ) ^ (-330 : Int) ≤ 2 ^ (-1075 : Int) := by
  have whole : 2 ^ (215 * 5) ≤ 10 ^ (66 * 5) := by
    calc 2 ^ (215 * 5) = (2 ^ 215) ^ 5 := pow_mul 2 215 5
      _ ≤ (10 ^ 66) ^ 5 := pow_le_pow_left₀ (Nat.zero_le _) (by norm_num) 5
      _ = 10 ^ (66 * 5) := (pow_mul 10 66 5).symm
  have ten : (-330 : Int) = -((66 * 5 : Nat) : Int) := rfl
  have two : (-1075 : Int) = -((215 * 5 : Nat) : Int) := rfl
  rw [ten, two, zpow_neg, zpow_neg, zpow_natCast, zpow_natCast]
  apply inv_anti₀ (pow_pos two_pos _)
  exact_mod_cast whole

/-- A decimal that is not rounded to zero is not far below the least magnitude. -/
theorem le_size {m : Nat} {power : Int} (positive : 0 < m)
    (nonzero : rankOf (m * 10 ^ power) ≠ 0) : -330 ≤ (decimalLength m : Int) + power := by
  by_contra small
  apply nonzero
  have cast : (0 : ℚ) < m := by exact_mod_cast positive
  have high : (m : ℚ) < 10 ^ (decimalLength m : Int) := by
    have := (decimalLength_le_iff (decimalLength_pos m)).mp (Nat.le_refl (decimalLength m))
    exact_mod_cast this
  apply rankOf_eq_zero (by positivity)
  calc (m : ℚ) * 10 ^ power < 10 ^ (decimalLength m : Int) * 10 ^ power := by gcongr
    _ = 10 ^ ((decimalLength m : Int) + power) := (zpow_add₀ (by norm_num) _ _).symm
    _ ≤ 10 ^ (-330 : Int) := by
      apply zpow_le_zpow_right₀ (by norm_num)
      omega
    _ ≤ 2 ^ (-1075 : Int) := ten_pow_le

section Exponent

variable {digits : List Char} (ascii : ∀ c ∈ digits, c.isDigit)

include ascii

theorem exponentOf?_negative (nonempty : digits ≠ []) :
    exponentOf? ('e' :: '-' :: digits) = some (-(Nat.ofDigitChars 10 digits 0 : Int)) := by
  have inside (c : Char) (mem : c ∈ digits) : isDecimal c := isDecimal_of_isDigit (ascii c mem)
  have run : digitRun (digits ++ []) = (digitValues digits, []) :=
    digitRun_append inside (by simp)
  rw [List.append_nil] at run
  obtain ⟨d, ds, values⟩ : ∃ d ds, digitValues digits = d :: ds :=
    List.exists_cons_of_ne_nil (mt (digitValues_eq_nil inside).mp nonempty)
  rw [← ofDigits_digitValues ascii, values]
  rw [values] at run
  simp [exponentOf?, takeSign, run]

end Exponent

/-- The exponent that ends a text in scientific form. -/
theorem exponentOf?_leftpad (power : Nat) :
    exponentOf? ('e' :: '-' :: (Nat.toDigits 10 power).leftpad 2 '0') = some (-(power : Int)) := by
  have ascii (c : Char) (mem : c ∈ (Nat.toDigits 10 power).leftpad 2 '0') : c.isDigit := by
    rcases List.mem_append.mp mem with pad | digit
    · rw [List.eq_of_mem_replicate pad]
      rfl
    · exact Nat.isDigit_of_mem_toDigits (by decide) (by decide) digit
  have nonempty : (Nat.toDigits 10 power).leftpad 2 '0' ≠ [] := by
    simp [List.leftpad, Nat.toDigits_ne_nil]
  rw [exponentOf?_negative ascii nonempty]
  simp [List.leftpad, Nat.ofDigitChars_append]

section Scientific

variable (negative : Bool) {digits : List Char} (ascii : ∀ c ∈ digits, c.isDigit)

include ascii

/-- Digits with an exponent are read as the decimal that they write. -/
theorem ofNumeral?_scientific (nonempty : digits ≠ []) (power : Nat) :
    ofNumeral? negative (scientific digits power) =
      some (ofDecimal negative (Nat.ofDigitChars 10 digits 0) (1 - power - digits.length)) := by
  have inside (c : Char) (mem : c ∈ digits) : isDecimal c := isDecimal_of_isDigit (ascii c mem)
  have noDigit : isDecimal 'e' = false := by decide
  have exponent := exponentOf?_leftpad power
  rw [← ofDigits_digitValues ascii]
  match digits, nonempty with
  | [first], nonempty =>
    have read := ofNumeral?_whole_exponent negative exponent (by simpa using noDigit) nonempty
      inside (by simp)
    simpa [scientific] using read
  | first :: d :: rest, _ =>
    have wholeInside : ∀ c ∈ [first], isDecimal c := fun c mem => inside c (by simp_all)
    have fractionInside : ∀ c ∈ d :: rest, isDecimal c := fun c mem => inside c (by simp_all)
    have read := ofNumeral?_point_exponent negative exponent (by simpa using noDigit) (by simp)
      wholeInside fractionInside
    have shift : (1 : Int) - power - (first :: d :: rest).length =
        -power - (d :: rest).length := by
      simp only [List.length_cons]
      omega
    rw [shift]
    exact read

end Scientific

/-- What the text of a number without sign can look like. -/
inductive Written : List Char → Prop
  | whole (digits : List Char) (nonempty : digits ≠ []) (ascii : ∀ c ∈ digits, c.isDigit) :
    Written digits
  | positional (digits : List Char) (nonempty : digits ≠ []) (ascii : ∀ c ∈ digits, c.isDigit)
    (point : Int) : Written (positional digits point)
  | scientific (digits : List Char) (nonempty : digits ≠ []) (ascii : ∀ c ∈ digits, c.isDigit)
    (power : Nat) : Written (scientific digits power)

theorem positional_simple {digits : List Char} (ascii : ∀ c ∈ digits, c.isDigit) (point : Int) :
    ∀ c ∈ positional digits point, c.isDigit ∨ c = '.' := by
  intro c mem
  unfold positional at mem
  split at mem
  · simp only [zeros, List.cons_append, List.mem_cons, List.mem_append, List.mem_replicate] at mem
    rcases mem with rfl | rfl | ⟨_, rfl⟩ | inside
    · exact .inl rfl
    · exact .inr rfl
    · exact .inl rfl
    · exact .inl (ascii c inside)
  · simp only [List.mem_append, List.mem_cons] at mem
    rcases mem with inside | rfl | inside
    · exact .inl (ascii c (List.mem_of_mem_take inside))
    · exact .inr rfl
    · exact .inl (ascii c (List.mem_of_mem_drop inside))

namespace Written

variable {text : List Char}

theorem exists_cons (written : Written text) : ∃ c cs, text = c :: cs ∧ c.isDigit := by
  cases written with
  | whole digits nonempty ascii =>
    obtain ⟨d, ds, rfl⟩ := List.exists_cons_of_ne_nil nonempty
    exact ⟨d, ds, rfl, ascii d (by simp)⟩
  | positional digits nonempty ascii point =>
    obtain ⟨d, ds, rfl⟩ := List.exists_cons_of_ne_nil nonempty
    unfold Number.positional
    split
    · exact ⟨'0', _, rfl, rfl⟩
    · rename_i inside
      obtain ⟨n, count⟩ : ∃ n, point.toNat = n + 1 := ⟨point.toNat - 1, by omega⟩
      rw [count]
      exact ⟨d, _, rfl, ascii d (by simp)⟩
  | scientific digits nonempty ascii power =>
    match digits, nonempty with
    | [d], _ => exact ⟨d, _, rfl, ascii d (by simp)⟩
    | d :: next :: rest, _ => exact ⟨d, _, rfl, ascii d (by simp)⟩

theorem char (written : Written text) {c : Char} (mem : c ∈ text) :
    c.isDigit ∨ c ∈ ['.', 'e', '-'] := by
  cases written with
  | whole digits _ ascii => exact .inl (ascii c mem)
  | positional digits _ ascii point =>
    exact (positional_simple ascii point c mem).imp_right fun dot => by simp [dot]
  | scientific digits _ ascii power =>
    have exponent (tail : c ∈ 'e' :: '-' :: (Nat.toDigits 10 power).leftpad 2 '0') :
        c.isDigit ∨ c ∈ ['.', 'e', '-'] := by
      simp only [List.leftpad, List.mem_cons, List.mem_append, List.mem_replicate] at tail
      rcases tail with rfl | rfl | ⟨_, rfl⟩ | digit
      · exact .inr (by simp)
      · exact .inr (by simp)
      · exact .inl rfl
      · exact .inl (Nat.isDigit_of_mem_toDigits (by decide) (by decide) digit)
    unfold Number.scientific at mem
    split at mem
    · rename_i first d rest
      simp only [List.cons_append, List.mem_cons, List.mem_append] at mem
      rcases mem with rfl | rfl | rfl | inside | tail
      · exact .inl (ascii _ (by simp))
      · exact .inr (by simp)
      · exact .inl (ascii _ (by simp))
      · exact .inl (ascii c (by simp [inside]))
      · exact exponent (by simpa using tail)
    · rcases List.mem_append.mp mem with inside | tail
      · exact .inl (ascii c inside)
      · exact exponent tail

end Written

/-- A fraction in scientific form is read as itself. -/
theorem ofNumeral?_scientific_fraction {rank m : Nat} {power : Int} {digits : List Char}
    (finite : rank < magnitudes) (negative : Bool) (fraction : whole? rank = none)
    (back : rankOf (m * 10 ^ power) = rank) (ascii : ∀ c ∈ digits, c.isDigit)
    (writes : Nat.ofDigitChars 10 digits 0 = m) (length : digits.length = decimalLength m)
    (small : ¬-4 < digits.length + power) :
    ofNumeral? negative (scientific digits (1 - (digits.length + power)).toNat) =
      some (.finite negative ⟨rank, finite⟩) := by
  obtain ⟨positive, _, high⟩ := decimal_of_fraction fraction back
  have nonempty : digits ≠ [] := by
    rw [← List.length_pos_iff, length]
    exact decimalLength_pos m
  have nonzero : rankOf (m * 10 ^ power) ≠ 0 := by
    rw [back]
    rintro rfl
    exact whole?_eq_none.mp fraction 0 (by simp [value, significand])
  have low := le_size positive nonzero
  have shift : (1 : Int) - (1 - (digits.length + power)).toNat - digits.length = power := by omega
  rw [ofNumeral?_scientific negative ascii nonempty, shift, writes,
    ofDecimal_eq negative positive low (by omega), back, ofRank_eq finite]

/-- A number without sign has a text that is read as the number. -/
theorem written_toChars (rank : Fin magnitudes) : Written (Number.finite false rank).toChars ∧
    ofText? (Number.finite false rank).toChars = some (.finite false rank) := by
  cases whole : whole? rank with
  | some n =>
    have text : (Number.finite false rank).toChars = Nat.toDigits 10 n := by
      simp [toChars, whole, signed]
    have ascii (c : Char) (mem : c ∈ Nat.toDigits 10 n) : c.isDigit :=
      Nat.isDigit_of_mem_toDigits (by decide) (by decide) mem
    have read : ofText? (Number.finite false rank).toChars = some (.finite false rank) :=
      ofText?_toChars fun c mem => .inl (ascii c (text ▸ mem))
    exact ⟨text ▸ .whole _ Nat.toDigits_ne_nil ascii, read⟩
  | none =>
    have text : (Number.finite false rank).toChars = fractionText rank := by
      simp [toChars, whole, signed]
    obtain ⟨m, power, digits, back, ascii, writes, length, form⟩ := exists_fractionText whole
    have nonempty : digits ≠ [] := by
      rw [← List.length_pos_iff, length]
      exact decimalLength_pos m
    rw [← text] at form
    split at form
    · have read : ofText? (Number.finite false rank).toChars = some (.finite false rank) :=
        ofText?_toChars fun c mem => positional_simple ascii _ c (form ▸ mem)
      exact ⟨form ▸ .positional digits nonempty ascii _, read⟩
    · rename_i small
      have written := Written.scientific digits nonempty ascii (1 - (digits.length + power)).toNat
      obtain ⟨c, cs, head, digit⟩ := written.exists_cons
      have read := ofNumeral?_scientific_fraction rank.isLt false whole back ascii writes length
        small
      rw [form]
      refine ⟨written, ?_⟩
      rw [head] at read ⊢
      rw [ofText?_numeral (isNumeral_of_isDigit digit), read]

theorem toChars_inj {rank rank' : Fin magnitudes}
    (same : (Number.finite false rank).toChars = (Number.finite false rank').toChars) :
    rank = rank' := by
  have read := (written_toChars rank).2
  rw [same, (written_toChars rank').2] at read
  simpa [eq_comm] using read

end Formula.Number
