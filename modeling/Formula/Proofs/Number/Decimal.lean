import Formula.Number.Writing
import Formula.Proofs.Number.Numeral
import Formula.Proofs.Number.Rounding

/-!
Decimals and the numbers they are read as. Main statement: a magnitude that is written with digits
and a point only is read back as itself.
-/

namespace Formula.Number

open Text

theorem ofDigits_digitValues {digits : List Char} (ascii : ∀ c ∈ digits, c.isDigit) :
    ofDigits (digitValues digits) = Nat.ofDigitChars 10 digits 0 := by
  have along (start : Nat) : (digitValues digits).foldl (fun n digit => 10 * n + digit) start =
      Nat.ofDigitChars 10 digits start := by
    induction digits generalizing start with
    | nil => simp [digitValues]
    | cons c digits ih =>
      have value := digitValue?_of_isDigit (ascii c (by simp))
      have later := ih fun d mem => ascii d (by simp [mem])
      simp only [digitValues] at later ⊢
      simp [value, later, Nat.ofDigitChars_cons]
  exact along 0

theorem decimalLength_le_iff {n k : Nat} (positive : 0 < k) : decimalLength n ≤ k ↔ n < 10 ^ k :=
  Nat.length_toDigits_le_iff (by decide) positive

theorem decimalLength_pos (n : Nat) : 0 < decimalLength n := Nat.length_toDigits_pos

theorem decimalLength_mul_pow {n : Nat} (positive : 0 < n) (k : Nat) :
    decimalLength (n * 10 ^ k) = decimalLength n + k := by
  induction k with
  | zero => simp
  | succ k ih =>
    have shifted : n * 10 ^ (k + 1) = 10 * (n * 10 ^ k) + 0 := by ring
    have split := Nat.toDigits_append_toDigits (b := 10) (n := n * 10 ^ k) (d := 0) (by decide)
      (by positivity) (by decide)
    rw [shifted, decimalLength, ← split, List.length_append, ← Nat.add_assoc, ← ih]
    rfl

/-- A whole number has at least the size that its length says. -/
theorem pow_le_of_decimalLength {n : Nat} (positive : 0 < n) : 10 ^ (decimalLength n - 1) ≤ n := by
  by_contra less
  rcases Nat.eq_zero_or_pos (decimalLength n - 1) with zero | more
  · rw [zero] at less
    omega
  · have := (decimalLength_le_iff more).mpr (not_le.mp less)
    omega

/-- A decimal below `2 ^ 52` has at most sixteen digits before the point. -/
theorem size_le {n : Nat} (positive : 0 < n) {power : Int} (small : (n : ℚ) * 10 ^ power < 2 ^ 52) :
    (decimalLength n : Int) + power ≤ 16 := by
  have length := decimalLength_pos n
  have low : (10 : ℚ) ^ ((decimalLength n - 1 : Nat) : Int) ≤ n := by
    exact_mod_cast pow_le_of_decimalLength positive
  have bound : (10 : ℚ) ^ (((decimalLength n - 1 : Nat) : Int) + power) < 10 ^ (16 : Int) := by
    calc (10 : ℚ) ^ (((decimalLength n - 1 : Nat) : Int) + power)
        = 10 ^ ((decimalLength n - 1 : Nat) : Int) * 10 ^ power := zpow_add₀ (by norm_num) _ _
      _ ≤ n * 10 ^ power := by gcongr
      _ < 2 ^ 52 := small
      _ ≤ 10 ^ (16 : Int) := by norm_num
  have := (zpow_lt_zpow_iff_right₀ (by norm_num)).mp bound
  omega

/-- Within the range of sizes, a decimal is rounded by its value. -/
theorem ofDecimal_eq (negative : Bool) {digits : Nat} {power : Int} (positive : 0 < digits)
    (low : -330 ≤ decimalLength digits + power) (high : decimalLength digits + power ≤ 310) :
    ofDecimal negative digits power = ofRank negative (rankOf (digits * 10 ^ power)) := by
  have inside : ¬(digits = 0 ∨ (decimalLength digits : Int) + power < -330) := by omega
  simp only [ofDecimal, Bool.or_eq_true, decide_eq_true_eq, if_neg inside,
    if_neg (not_lt.mpr high), ofRatio]
  rw [nearestRank_eq _ (scaled_pos (by decide) _ (by decide)), scaled_eq (by decide)]
  simp

/-- What is read without a sign has none. -/
theorem ofDecimal_unsigned (digits : Nat) (power : Int) :
    ofDecimal false digits power = .infinite false ∨
      ∃ rank, ofDecimal false digits power = .finite false rank := by
  simp only [ofDecimal]
  split_ifs
  · exact .inr ⟨0, rfl⟩
  · exact .inl rfl
  · rw [ofRatio, ofRank]
    split
    · exact .inr ⟨_, rfl⟩
    · exact .inl rfl

theorem exactDecimal_eq (rank : Nat) :
    ((exactDecimal rank).1 : ℚ) * 10 ^ (exactDecimal rank).2 = value rank := by
  unfold exactDecimal value
  split
  · rename_i nonneg
    obtain ⟨k, same⟩ := Int.eq_ofNat_of_zero_le nonneg
    simp [same]
  · rename_i negative
    obtain ⟨k, same⟩ := Int.eq_ofNat_of_zero_le (a := -exponent rank) (by omega)
    have same' : exponent rank = -k := by omega
    have ten : (10 : ℚ) = 2 * 5 := by norm_num
    simp only [same', neg_neg, Int.toNat_natCast, Nat.pow_eq, Nat.cast_mul, Nat.cast_pow,
      Nat.cast_ofNat, zpow_neg, zpow_natCast, ten, mul_pow]
    field_simp

theorem rankOf_of_readsBack {rank digits : Nat} {power : Int} (back : readsBack rank digits power) :
    rankOf (digits * 10 ^ power) = rank := by
  simp only [readsBack, beq_iff_eq] at back
  rw [nearestRank_eq _ (scaled_pos (by decide) _ (by decide)), scaled_eq (by decide)] at back
  simpa using back

/-- The shortest decimal is rounded to the rank that it is made for. -/
theorem rankOf_shortest (rank : Nat) :
    rankOf ((shortest rank).1 * 10 ^ (shortest rank).2) = rank := by
  unfold shortest
  cases found : (List.range' 1 17).findSome? (withDigits? rank) with
  | none =>
    rw [Option.getD_none, exactDecimal_eq, rankOf_value]
  | some decimal =>
    obtain ⟨count, _, withDigits⟩ := List.exists_of_findSome?_eq_some found
    simp only [withDigits?, Option.map_eq_some_iff] at withDigits
    obtain ⟨digits, first, rfl⟩ := withDigits
    exact rankOf_of_readsBack (by simpa using List.find?_some first)

theorem two_pow_le : 2 ^ 1024 ≤ 10 ^ (62 * 5) := by
  calc 2 ^ 1024 ≤ 2 ^ (205 * 5) := pow_le_pow_right₀ one_le_two (by decide)
    _ = (2 ^ 205) ^ 5 := pow_mul 2 205 5
    _ ≤ (10 ^ 62) ^ 5 := pow_le_pow_left₀ (Nat.zero_le _) (by norm_num) 5
    _ = 10 ^ (62 * 5) := (pow_mul 10 62 5).symm

section Read

variable {rank : Nat} (finite : rank < magnitudes) (negative : Bool)

theorem ofRank_eq : ofRank negative rank = .finite negative ⟨rank, finite⟩ := dif_pos finite

include finite in
theorem value_lt : value rank < (2 ^ 1024 : Nat) := by
  have significandBound : (significand rank : ℚ) < 2 ^ (53 : Int) := by
    calc (significand rank : ℚ) < (2 * binade : Nat) := by exact_mod_cast significand_lt rank
      _ = 2 ^ (53 : Int) := by norm_num [binade]
  have exponentBound : exponent rank ≤ 971 := by
    have : rank / binade < 2047 := Nat.div_lt_of_lt_mul (Nat.mul_comm _ _ ▸ finite)
    unfold exponent
    split <;> omega
  calc value rank < 2 ^ (53 : Int) * 2 ^ exponent rank := by
        unfold value
        gcongr
    _ ≤ 2 ^ (53 : Int) * 2 ^ (971 : Int) := by
        gcongr
        exact one_le_two
    _ = (2 ^ 1024 : Nat) := by
        have sum : (53 : Int) + 971 = (1024 : Nat) := rfl
        rw [← zpow_add₀ two_ne_zero, sum, zpow_natCast, Nat.cast_pow, Nat.cast_ofNat]

/-- The digits of a whole magnitude are read as this magnitude. -/
theorem ofNumeral?_whole?_digits {n : Nat} (whole : whole? rank = some n) :
    ofNumeral? negative (Nat.toDigits 10 n) = some (.finite negative ⟨rank, finite⟩) := by
  have ascii (c : Char) (mem : c ∈ Nat.toDigits 10 n) : c.isDigit :=
    Nat.isDigit_of_mem_toDigits (by decide) (by decide) mem
  rw [ofNumeral?_whole negative Nat.toDigits_ne_nil fun c mem => isDecimal_of_isDigit (ascii c mem),
    ofDigits_digitValues ascii, Nat.ofDigitChars_ten_toDigits]
  have exact := whole?_eq_some.mp whole
  rcases Nat.eq_zero_or_pos n with rfl | positive
  · have : rank = 0 := by rw [← rankOf_value rank, exact]; rfl
    subst this
    rfl
  · have bound := exact ▸ value_lt finite
    have small : n < 10 ^ (62 * 5) := (Nat.cast_lt.mp bound).trans_le two_pow_le
    have length := (decimalLength_le_iff (by decide)).mpr small
    rw [ofDecimal_eq negative positive (by omega) (by omega), zpow_zero, mul_one, ← exact,
      rankOf_value, ofRank_eq finite]

end Read

/-- Behind the significant digits there are zeros only. -/
theorem exists_significant (digits : List Char) : ∃ k, digits = significant digits ++ zeros k := by
  have split := List.takeWhile_append_dropWhile (p := (· == '0')) (l := digits.reverse)
  have zero : digits.reverse.takeWhile (· == '0') =
      zeros (digits.reverse.takeWhile (· == '0')).length := by
    refine List.eq_replicate_of_mem fun c mem => ?_
    simpa using List.mem_takeWhile_imp mem
  refine ⟨(digits.reverse.takeWhile (· == '0')).length, ?_⟩
  have back := congrArg List.reverse split
  rw [List.reverse_append, List.reverse_reverse, zero, zeros, List.reverse_replicate] at back
  exact back.symm

section Positional

variable (negative : Bool) {digits : List Char} (ascii : ∀ c ∈ digits, c.isDigit)

include ascii

/-- Zeros behind the point move it to the left. -/
theorem ofNumeral?_zeros (n : Nat) :
    ofNumeral? negative ('0' :: '.' :: zeros n ++ digits) =
      some (ofDecimal negative (Nat.ofDigitChars 10 digits 0) (-(n + digits.length : Nat))) := by
  have zeroAscii (c : Char) (mem : c ∈ zeros n) : c.isDigit := by
    rw [List.eq_of_mem_replicate mem]
    rfl
  have fraction (c : Char) (mem : c ∈ zeros n ++ digits) : c.isDigit :=
    (List.mem_append.mp mem).elim (zeroAscii c) (ascii c)
  have all (c : Char) (mem : c ∈ ['0'] ++ (zeros n ++ digits)) : c.isDigit := by
    rcases List.mem_cons.mp mem with rfl | behind
    · rfl
    · exact fraction c behind
  have read : ofNumeral? negative (['0'] ++ '.' :: (zeros n ++ digits)) = some (ofDecimal negative
      (ofDigits (digitValues (['0'] ++ (zeros n ++ digits)))) (-(zeros n ++ digits).length)) :=
    ofNumeral?_point negative (by simp) (by simp [isDecimal_of_isDigit])
      (fun c mem => isDecimal_of_isDigit (fraction c mem))
  have same : Nat.ofDigitChars 10 (['0'] ++ (zeros n ++ digits)) 0 =
      Nat.ofDigitChars 10 digits 0 := by
    simp [Nat.ofDigitChars_append, Nat.ofDigitChars_cons, zeros]
  rw [ofDigits_digitValues all, same, List.length_append, zeros, List.length_replicate] at read
  exact read

theorem ofNumeral?_pointed (nonempty : digits ≠ []) (n : Nat) :
    ofNumeral? negative (digits.take n ++ '.' :: digits.drop n) =
      some (ofDecimal negative (Nat.ofDigitChars 10 digits 0) (-(digits.drop n).length)) := by
  have decimal (c : Char) (mem : c ∈ digits) : isDecimal c := isDecimal_of_isDigit (ascii c mem)
  have both : digits.take n ++ digits.drop n ≠ [] := by rwa [List.take_append_drop]
  have read := ofNumeral?_point negative both
    (fun c mem => decimal c (List.mem_of_mem_take mem))
    (fun c mem => decimal c (List.mem_of_mem_drop mem))
  rwa [List.take_append_drop, ofDigits_digitValues ascii] at read

/-- Digits with a point are read as the decimal that they write. -/
theorem ofNumeral?_positional {power : Int} (fraction : power < 0) :
    ofNumeral? negative (positional digits (digits.length + power)) =
      some (ofDecimal negative (Nat.ofDigitChars 10 digits 0) power) := by
  unfold positional
  split
  · rename_i leading
    rw [ofNumeral?_zeros negative ascii]
    congr 2
    omega
  · rename_i inside
    have nonempty : digits ≠ [] := by
      rintro rfl
      simp at inside
      omega
    rw [ofNumeral?_pointed negative ascii nonempty, List.length_drop]
    congr 2
    omega

end Positional

/-- The significant digits of a whole number write it up to a power of ten. -/
theorem significant_toDigits {n : Nat} (positive : 0 < n) :
    ∃ m k, n = m * 10 ^ k ∧ 0 < m ∧ (∀ c ∈ significant (Nat.toDigits 10 n), c.isDigit) ∧
      Nat.ofDigitChars 10 (significant (Nat.toDigits 10 n)) 0 = m ∧
        (significant (Nat.toDigits 10 n)).length = decimalLength m := by
  obtain ⟨k, split⟩ := exists_significant (Nat.toDigits 10 n)
  have exact : n = Nat.ofDigitChars 10 (significant (Nat.toDigits 10 n)) 0 * 10 ^ k := by
    have value := Nat.ofDigitChars_ten_toDigits (n := n)
    rw [split, Nat.ofDigitChars_append, zeros, Nat.ofDigitChars_replicate_zero] at value
    rw [Nat.mul_comm]
    exact value.symm
  have positive' : 0 < Nat.ofDigitChars 10 (significant (Nat.toDigits 10 n)) 0 := by
    apply Nat.pos_of_ne_zero
    intro zero
    rw [zero, Nat.zero_mul] at exact
    omega
  refine ⟨_, k, exact, positive', fun c mem => ?_, rfl, ?_⟩
  · have inside : c ∈ Nat.toDigits 10 n := by
      rw [split]
      exact List.mem_append_left _ mem
    exact Nat.isDigit_of_mem_toDigits (by decide) (by decide) inside
  · have length := decimalLength_mul_pow positive' k
    have whole := congrArg List.length split
    rw [← exact, decimalLength, whole, List.length_append, zeros, List.length_replicate] at length
    omega

theorem not_simple_scientific (digits : List Char) (power : Nat) :
    ¬∀ c ∈ scientific digits power, c.isDigit ∨ c = '.' := by
  intro simple
  have mem : 'e' ∈ scientific digits power := by
    unfold scientific
    split <;> simp
  exact absurd (simple 'e' mem) (by decide)

theorem mul_pow_shift (m k : Nat) (power : Int) :
    ((m * 10 ^ k : Nat) : ℚ) * 10 ^ power = m * 10 ^ (power + k) := by
  rw [zpow_add₀ (by norm_num), zpow_natCast]
  push_cast
  ring

/-- A decimal that is rounded to a fraction has digits behind its point and few before it. -/
theorem decimal_of_fraction {rank digits : Nat} {power : Int} (fraction : whole? rank = none)
    (back : rankOf (digits * 10 ^ power) = rank) :
    0 < digits ∧ power < 0 ∧ (decimalLength digits : Int) + power ≤ 16 := by
  have notWhole := whole?_eq_none.mp fraction
  have positive : 0 < digits := by
    apply Nat.pos_of_ne_zero
    rintro rfl
    have zero : rank = 0 := by rw [← back]; simp [rankOf]
    exact notWhole 0 (by simp [zero, value, significand])
  have positiveValue : (0 : ℚ) < digits * 10 ^ power := by
    have : (0 : ℚ) < digits := by exact_mod_cast positive
    positivity
  obtain ⟨small, fractional⟩ := lt_of_value_rankOf positiveValue (back.symm ▸ notWhole)
  refine ⟨positive, ?_, size_le positive small⟩
  by_contra nonneg
  obtain ⟨k, exact⟩ := Int.eq_ofNat_of_zero_le (not_lt.mp nonneg)
  refine fractional (digits * 10 ^ k) ?_
  rw [exact]
  norm_cast

/-- A fraction is written with the significant digits of a decimal that is rounded to it. -/
theorem exists_fractionText {rank : Nat} (fraction : whole? rank = none) :
    ∃ (m : Nat) (power : Int) (digits : List Char), rankOf (m * 10 ^ power) = rank ∧
      (∀ c ∈ digits, c.isDigit) ∧ Nat.ofDigitChars 10 digits 0 = m ∧
        digits.length = decimalLength m ∧ fractionText rank =
          if -4 < digits.length + power then positional digits (digits.length + power)
          else scientific digits (1 - (digits.length + power)).toNat := by
  have back := rankOf_shortest rank
  unfold fractionText
  generalize shortest rank = decimal at back ⊢
  obtain ⟨n, power⟩ := decimal
  obtain ⟨positive, _, _⟩ := decimal_of_fraction fraction back
  -- the zeros at the end become part of the power
  obtain ⟨m, k, rfl, positive', ascii, writes, length⟩ := significant_toDigits positive
  have point : ((Nat.toDigits 10 (m * 10 ^ k)).length : Int) + power =
      decimalLength m + (power + k) := by
    have := decimalLength_mul_pow positive' k
    simp only [decimalLength] at this ⊢
    omega
  rw [mul_pow_shift] at back
  refine ⟨m, power + k, _, back, ascii, writes, length, ?_⟩
  simp only [point, length]

/-- A fraction that is written with digits and a point only is read as itself. -/
theorem ofNumeral?_fractionText {rank : Nat} (finite : rank < magnitudes) (negative : Bool)
    (fraction : whole? rank = none) (simple : ∀ c ∈ fractionText rank, c.isDigit ∨ c = '.') :
    ofNumeral? negative (fractionText rank) = some (.finite negative ⟨rank, finite⟩) := by
  obtain ⟨m, power, digits, back, ascii, writes, length, text⟩ := exists_fractionText fraction
  obtain ⟨positive, behind, high⟩ := decimal_of_fraction fraction back
  rw [text] at simple ⊢
  split at simple
  · rename_i low
    rw [if_pos low, ofNumeral?_positional negative ascii behind, writes,
      ofDecimal_eq negative positive (by omega) (by omega), back, ofRank_eq finite]
  · exact absurd simple (not_simple_scientific _ _)

/-- A number without sign that is written with digits and a point only is read as itself. -/
theorem ofText?_toChars {rank : Fin magnitudes}
    (simple : ∀ c ∈ (Number.finite false rank).toChars, c.isDigit ∨ c = '.') :
    ofText? (Number.finite false rank).toChars = some (.finite false rank) := by
  have numerals (c : Char) (mem : c ∈ (Number.finite false rank).toChars) : isNumeral c := by
    rcases simple c mem with digit | rfl
    · exact isNumeral_of_isDigit digit
    · decide
  rw [ofText?_numerals numerals]
  cases whole : whole? rank with
  | some n =>
    have written : (Number.finite false rank).toChars = Nat.toDigits 10 n := by
      simp [toChars, whole, signed]
    rw [written, ofNumeral?_whole?_digits rank.isLt false whole]
  | none =>
    have written : (Number.finite false rank).toChars = fractionText rank := by
      simp [toChars, whole, signed]
    rw [written] at simple ⊢
    exact ofNumeral?_fractionText rank.isLt false whole simple

end Formula.Number
