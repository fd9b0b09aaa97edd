import Formula.Proofs.Number.Nearest

/-!
Quotients and powers. Main statement: both exist for any two numbers; a quotient by zero and a power
that the machine refuses are infinite or NaN by the signs, the zeros and the odd exponents among the
exact values, and any other quotient is the exact one, rounded to nearest.
-/

namespace Formula.Number

variable {x y : Number}

/-- The quotients by numbers that are not zero. -/
inductive IsQuotient : Number → Number → Number → Prop
  | nanDividend (y : Number) : IsQuotient .nan y .nan
  | nanDivisor (x : Number) : IsQuotient x .nan .nan
  | infinities (a b : Bool) : IsQuotient (.infinite a) (.infinite b) .nan
  | infiniteDividend (a b : Bool) (n : Fin magnitudes) :
    IsQuotient (.infinite a) (.finite b n) (.infinite (a ^^ b))
  | infiniteDivisor (a b : Bool) (m : Fin magnitudes) :
    IsQuotient (.finite a m) (.infinite b) (.zero (a ^^ b))
  | rounded (a b : Bool) (m n : Fin magnitudes) {rank : Nat}
    (nearest : Nearest (value m / value n) rank) :
    IsQuotient (.finite a m) (.finite b n) (ofRank (a ^^ b) rank)

theorem significand_pos {rank : Nat} (nonzero : rank ≠ 0) : 0 < significand rank := by
  unfold significand
  split
  · exact Nat.pos_of_ne_zero nonzero
  · exact Nat.add_pos_right _ (by decide)

/-- The quotient of two magnitudes is rounded by its exact value. -/
theorem quotient_finite (a b : Bool) (m : Fin magnitudes) {n : Fin magnitudes}
    (nonzero : n.val ≠ 0) : quotient (.finite a m) (.finite b n) =
      ofRank (a ^^ b) (rankOf (value m / value n)) := by
  have positive := significand_pos nonzero
  simp only [quotient, ofRatio]
  rw [nearestRank_eq _ (scaled_pos (by decide) _ positive), scaled_eq (by decide)]
  congr 2
  rw [value, value, zpow_sub₀ (by norm_num)]
  push_cast
  ring

theorem isQuotient_quotient (x : Number) {y : Number} (nonzero : ¬y.isZero) :
    IsQuotient x y (x.quotient y) := by
  cases x with
  | nan => exact .nanDividend y
  | infinite a =>
    cases y with
    | nan => exact .nanDivisor _
    | infinite b => exact .infinities a b
    | finite b n => exact .infiniteDividend a b n
  | finite a m =>
    cases y with
    | nan => exact .nanDivisor _
    | infinite b => exact .infiniteDivisor a b m
    | finite b n =>
      have nonzero' : n.val ≠ 0 := by simpa [isZero] using nonzero
      rw [quotient_finite a b m nonzero']
      apply IsQuotient.rounded
      apply nearest_rankOf
      exact div_nonneg (value_nonneg _) (value_nonneg _)

/-- Why the machine refuses a power. -/
inductive PowerError where
  | overflow
  | domain
  deriving DecidableEq

/-- The machine's power with its refusals: zero has no power with a negative exponent and a negative
number none with a fractional one, and the power of finite numbers has to be finite. -/
def checkedPow (x y : Number) : Except PowerError Number :=
  if x.isFinite && y.isFinite then
    if x.isZero && (y.isNegative && !y.isZero) || x.isNegative && !x.isZero && !y.isInteger then
      .error .domain
    else if x.isZero || (machinePow x y).isFinite then .ok (machinePow x y)
    else .error .overflow
  else .ok (machinePow x y)

/-- A negative number with a fractional exponent. -/
def RootOfNegative (x y : Number) : Prop :=
  ∃ p q, x.exactValue? = some p ∧ y.exactValue? = some q ∧ p < 0 ∧ ∀ k : Int, q ≠ k

/-- Zero with a negative exponent. -/
def PoleAtZero (x y : Number) : Prop :=
  ∃ q, x.exactValue? = some 0 ∧ y.exactValue? = some q ∧ q < 0

/-- A finite power of a number that is not zero, but too large. -/
def PowerOverflows (x y : Number) : Prop :=
  x.isFinite ∧ y.isFinite ∧ ¬x.isZero ∧ ¬RootOfNegative x y ∧ ¬(machinePow x y).isFinite

theorem rootOfNegative_iff : RootOfNegative x y ↔
    x.isFinite ∧ y.isFinite ∧ (x.isNegative && !x.isZero) ∧ ¬y.isInteger := by
  constructor
  · intro ⟨p, q, base, exponent, negative, fraction⟩
    refine ⟨isFinite_iff.mpr ⟨p, base⟩, isFinite_iff.mpr ⟨q, exponent⟩,
      (isNegative_iff base).mpr negative, ?_⟩
    intro integer
    obtain ⟨k, whole⟩ := isInteger_iff.mp integer
    rw [exponent] at whole
    exact fraction k (Option.some.inj whole)
  · intro ⟨base, exponent, negative, noInteger⟩
    obtain ⟨p, base⟩ := isFinite_iff.mp base
    obtain ⟨q, exponent⟩ := isFinite_iff.mp exponent
    refine ⟨p, q, base, exponent, (isNegative_iff base).mp negative, ?_⟩
    intro k whole
    rw [whole] at exponent
    exact noInteger (isInteger_iff.mpr ⟨k, exponent⟩)

theorem poleAtZero_iff :
    PoleAtZero x y ↔ x.isZero ∧ y.isFinite ∧ (y.isNegative && !y.isZero) := by
  constructor
  · intro ⟨q, base, exponent, negative⟩
    exact ⟨isZero_iff.mpr base, isFinite_iff.mpr ⟨q, exponent⟩,
      (isNegative_iff exponent).mpr negative⟩
  · intro ⟨base, exponent, negative⟩
    obtain ⟨q, exponent⟩ := isFinite_iff.mp exponent
    exact ⟨q, isZero_iff.mp base, exponent, (isNegative_iff exponent).mp negative⟩

theorem isFinite_of_isZero (zero : x.isZero) : x.isFinite :=
  isFinite_iff.mpr ⟨0, isZero_iff.mp zero⟩

theorem checkedPow_eq_domain :
    checkedPow x y = .error .domain ↔ PoleAtZero x y ∨ RootOfNegative x y := by
  have finite : x.isZero → x.isFinite := isFinite_of_isZero
  rw [rootOfNegative_iff, poleAtZero_iff, checkedPow]
  grind

theorem checkedPow_eq_overflow : checkedPow x y = .error .overflow ↔ PowerOverflows x y := by
  rw [PowerOverflows, rootOfNegative_iff, checkedPow]
  grind

/-- A power that is not refused is the machine's power. -/
theorem pow_of_ok {z : Number} (taken : checkedPow x y = .ok z) :
    z = machinePow x y ∧ pow x y = z := by
  unfold checkedPow at taken
  unfold pow
  grind

theorem pow_of_root (root : RootOfNegative x y) : pow x y = .nan := by
  obtain ⟨base, exponent, negative, fraction⟩ := rootOfNegative_iff.mp root
  obtain ⟨sign, nonzero⟩ : x.isNegative ∧ x.isZero = false := by simpa using negative
  simp [pow, base, exponent, sign, nonzero, fraction]

theorem pow_of_pole (pole : PoleAtZero x y) : pow x y = powerInfinity x y := by
  obtain ⟨zero, exponent, negative⟩ := poleAtZero_iff.mp pole
  simp [pow, zero, isFinite_of_isZero zero, exponent, negative]

theorem pow_of_overflow (overflows : PowerOverflows x y) : pow x y = powerInfinity x y := by
  obtain ⟨base, exponent, nonzero, noRoot, large⟩ := overflows
  have finite : x.isFinite && y.isFinite := by simp [base, exponent]
  have real : ¬(x.isNegative && !y.isInteger) := by
    intro root
    apply noRoot
    obtain ⟨sign, fraction⟩ : x.isNegative ∧ y.isInteger = false := by simpa using root
    rw [rootOfNegative_iff]
    exact ⟨base, exponent, by simp [sign, nonzero], by simp [fraction]⟩
  rw [pow, if_pos finite, if_neg nonzero, if_neg real, if_neg large]

/-- In place of a power that is refused there is NaN or an infinity. -/
theorem pow_of_error {e : PowerError} (refused : checkedPow x y = .error e) :
    (RootOfNegative x y ∧ pow x y = .nan) ∨
      (¬RootOfNegative x y ∧ (e = .overflow ∨ x.isZero) ∧ pow x y = powerInfinity x y) := by
  cases e with
  | overflow =>
    have overflows := checkedPow_eq_overflow.mp refused
    exact .inr ⟨overflows.2.2.2.1, .inl rfl, pow_of_overflow overflows⟩
  | domain =>
    rcases checkedPow_eq_domain.mp refused with pole | root
    · have zero := (poleAtZero_iff.mp pole).1
      have noRoot : ¬RootOfNegative x y := by
        simp [rootOfNegative_iff, zero]
      exact .inr ⟨noRoot, .inr zero, pow_of_pole pole⟩
    · exact .inl ⟨root, pow_of_root root⟩

/-- An odd whole exponent, of a base with its sign bit set. -/
def OddPowerOfNegative (x y : Number) : Prop :=
  x.isNegative ∧ ∃ k : Int, Odd k ∧ y.exactValue? = some (k : ℚ)

theorem oddPowerOfNegative_iff : OddPowerOfNegative x y ↔ x.isNegative && y.isOddInteger := by
  rw [OddPowerOfNegative, ← isOddInteger_iff, Bool.and_eq_true]

/-- A fraction is no odd exponent. -/
theorem not_odd_of_root (root : RootOfNegative x y) : ¬OddPowerOfNegative x y := by
  intro ⟨_, k, _, whole⟩
  obtain ⟨p, q, _, exponent, _, fraction⟩ := root
  rw [exponent] at whole
  exact fraction k (Option.some.inj whole)

/-- For a whole exponent, the sign that counts is that of the exact power. -/
theorem oddPowerOfNegative_iff_zpow {p : ℚ} {k : Int} (base : x.exactValue? = some p)
    (nonzero : p ≠ 0) (exponent : y.exactValue? = some (k : ℚ)) :
    OddPowerOfNegative x y ↔ p ^ k < 0 := by
  have zero : ¬x.isZero := by
    rw [isZero_iff, base, Option.some_inj]
    exact nonzero
  have sign : x.isNegative ↔ p < 0 := by
    rw [← isNegative_iff base]
    simp [zero]
  have parity : (∃ k' : Int, Odd k' ∧ y.exactValue? = some (k' : ℚ)) ↔ Odd k := by
    simp [exponent]
  rw [OddPowerOfNegative, sign, parity]
  rcases Int.even_or_odd k with even | odd
  · have noOdd := Int.not_odd_iff_even.mpr even
    have nonneg := not_lt.mpr (even.zpow_nonneg p)
    simp [noOdd, nonneg]
  · simp [odd, odd.zpow_neg_iff]

/-- Any two numbers have a quotient and a power. By zero, NaN and zero have the quotient NaN and the
others an infinity with the sign of both; by anything else the exact quotient is rounded. A power
that the machine refuses is NaN for a negative base with a fractional exponent, negative infinity
where a base with its sign bit set overflows or is zero under an odd exponent, and else positive
infinity. -/
theorem div_and_pow (x y : Number) :
    (y.isZero → (div x y = .nan ↔ x.isZero ∨ x = .nan) ∧
      (¬(x.isZero ∨ x = .nan) → div x y = .infinite (x.isNegative ^^ y.isNegative))) ∧
    (¬y.isZero → div x y = x.quotient y ∧ IsQuotient x y (x.quotient y)) ∧
    (∀ z, checkedPow x y = .ok z → z = machinePow x y ∧ pow x y = z) ∧
    (checkedPow x y = .error .domain ↔ PoleAtZero x y ∨ RootOfNegative x y) ∧
    (checkedPow x y = .error .overflow ↔ PowerOverflows x y) ∧
    ∀ e, checkedPow x y = .error e →
      (pow x y = .nan ↔ RootOfNegative x y) ∧
      (pow x y = .infinite true ↔ (e = .overflow ∨ x.isZero) ∧ OddPowerOfNegative x y) ∧
      (pow x y = .infinite false ↔
        ¬RootOfNegative x y ∧ ¬((e = .overflow ∨ x.isZero) ∧ OddPowerOfNegative x y)) := by
  refine ⟨?_, ?_, fun z => pow_of_ok, checkedPow_eq_domain, checkedPow_eq_overflow, ?_⟩
  · intro zero
    have result : div x y = if x.isZero ∨ x = .nan then .nan
        else .infinite (x.isNegative ^^ y.isNegative) := by
      simp [div, zero]
    by_cases noQuotient : x.isZero ∨ x = .nan
    · simp [result, noQuotient]
    · simp [result, noQuotient]
  · intro nonzero
    exact ⟨if_neg nonzero, isQuotient_quotient x nonzero⟩
  · intro e refused
    rcases pow_of_error refused with ⟨root, result⟩ | ⟨noRoot, infinite, result⟩
    · simp [result, root, not_odd_of_root root]
    · rw [result, powerInfinity]
      by_cases odd : OddPowerOfNegative x y
      · have sign := oddPowerOfNegative_iff.mp odd
        simp [sign, odd, noRoot, infinite]
      · have sign := mt oddPowerOfNegative_iff.mpr odd
        simp [sign, odd, noRoot]

end Formula.Number
