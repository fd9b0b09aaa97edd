import Formula.Proofs.Number.Exact

/-!
Rounding to nearest. Main statement: of all ranks, those beyond the finite ones among them, the one
that a value is rounded to is the nearest, and it is even when another one is equally near.
-/

namespace Formula.Number

/-- The rank nearest to a value, the even one of two. -/
structure Nearest (q : ℚ) (rank : Nat) : Prop where
  le (r : Nat) : |q - value rank| ≤ |q - value r|
  even (r : Nat) (other : r ≠ rank) (tie : |q - value rank| = |q - value r|) : rank % 2 = 0

theorem value_inj {r s : Nat} (same : value r = value s) : r = s := by
  rw [← rankOf_value r, same, rankOf_value]

section Whole

variable {u : ℚ} (nonneg : 0 ≤ u)

include nonneg

/-- Rounding to a whole number is off by a half at most, and a half only towards an even one. -/
theorem roundEven_error : |u - roundEven u| ≤ 1 / 2 ∧
    (|u - roundEven u| = 1 / 2 → roundEven u % 2 = 0) := by
  have low := Nat.floor_le nonneg
  have high := Nat.lt_floor_add_one u
  unfold roundEven
  split_ifs with below above
  · rw [abs_of_nonneg (by linarith)]
    exact ⟨below.le, fun half => absurd half below.ne⟩
  · push_cast
    rw [abs_sub_comm, abs_of_nonneg (by linarith)]
    exact ⟨by linarith, fun half => by linarith⟩
  · have half : u - ⌊u⌋₊ = 1 / 2 := le_antisymm (not_lt.mp above) (not_lt.mp below)
    constructor
    · rcases Nat.mod_two_eq_zero_or_one ⌊u⌋₊ with even | odd
      · rw [even, Nat.add_zero, half, abs_of_pos (by norm_num)]
      · rw [odd, Nat.cast_add, ← sub_sub, half]
        norm_num [abs_of_neg]
    · intro _
      omega

/-- The whole number that a value is rounded to is the nearest one. -/
theorem roundEven_nearest (n : Nat) (other : n ≠ roundEven u) :
    |u - roundEven u| ≤ |u - n| ∧ (|u - roundEven u| = |u - n| → roundEven u % 2 = 0) := by
  obtain ⟨error, even⟩ := roundEven_error nonneg
  have apart : (1 : ℚ) ≤ |(roundEven u : ℚ) - n| := by
    have distinct : (1 : Int) ≤ |(roundEven u : Int) - n| := by
      apply Int.one_le_abs
      omega
    exact_mod_cast distinct
  have triangle : |(roundEven u : ℚ) - n| ≤ |u - roundEven u| + |u - n| := by
    rw [abs_sub_comm u (roundEven u)]
    have sum := abs_add_le ((roundEven u : ℚ) - u) (u - n)
    rwa [sub_add_sub_cancel] at sum
  constructor
  · linarith
  · intro tie
    apply even
    linarith

end Whole

/-- The magnitudes that are not spaced more closely than a power of two are multiples of it. -/
theorem exists_multiple {rank : Nat} {power : Int} (wide : power ≤ exponent rank) :
    ∃ n : Nat, value rank = n * 2 ^ power := by
  obtain ⟨k, gap⟩ := Int.eq_ofNat_of_zero_le (Int.sub_nonneg_of_le wide)
  refine ⟨significand rank * 2 ^ k, ?_⟩
  have split : exponent rank = k + power := by omega
  rw [value, split, zpow_add₀ two_ne_zero, zpow_natCast]
  push_cast
  ring

/-- The magnitudes that are spaced more closely lie below the powers of two with wider spacing. -/
theorem value_lt_of_exponent {rank : Nat} {power : Int} (close : exponent rank < power) :
    value rank < binade * 2 ^ power := by
  have bound : (significand rank : ℚ) < 2 * binade := by
    exact_mod_cast significand_lt rank
  calc value rank < 2 * binade * 2 ^ exponent rank := by
        unfold value
        gcongr
    _ ≤ 2 * binade * 2 ^ (power - 1) := by
        gcongr
        · exact one_le_two
        · omega
    _ = binade * 2 ^ power := by
        rw [zpow_sub_one₀ two_ne_zero]
        ring

section Grid

variable {q : ℚ} (positive : 0 < q)

include positive

/-- Of the multiples of its grid, a value is rounded to the nearest one. -/
theorem grid_nearest (n : Nat) : |q - value (rankOf q)| ≤ |q - n * 2 ^ grid q| ∧
    (value (rankOf q) ≠ n * 2 ^ grid q → |q - value (rankOf q)| = |q - n * 2 ^ grid q| →
      rankOf q % 2 = 0) := by
  have step : (0 : ℚ) < 2 ^ grid q := zpow_pos two_pos _
  have nonneg : 0 ≤ q / 2 ^ grid q := by positivity
  have distance (k : Nat) : |q - k * 2 ^ grid q| = |q / 2 ^ grid q - k| * 2 ^ grid q := by
    calc |q - k * 2 ^ grid q| = |(q / 2 ^ grid q - k) * 2 ^ grid q| := by
          rw [sub_mul, div_mul_cancel₀ _ step.ne']
      _ = |q / 2 ^ grid q - k| * 2 ^ grid q := by rw [abs_mul, abs_of_pos step]
  rw [value_rankOf positive]
  by_cases same : n = roundEven (q / 2 ^ grid q)
  · subst same
    exact ⟨le_refl _, fun other => absurd rfl other⟩
  · obtain ⟨near, even⟩ := roundEven_nearest nonneg n same
    rw [distance, distance]
    constructor
    · exact mul_le_mul_of_nonneg_right near step.le
    · intro _ tie
      have parity := even (mul_right_cancel₀ step.ne' tie)
      rw [rankOf, if_neg positive.ne']
      unfold binade
      omega

/-- Ranks that are spaced more closely lie further below, beyond a multiple of the grid. -/
theorem nearer_of_close {r : Nat} (close : exponent r < grid q) :
    |q - value (rankOf q)| < |q - value r| := by
  have step : (0 : ℚ) < 2 ^ grid q := zpow_pos two_pos _
  have normal : binade * 2 ^ grid q ≤ q := by
    rcases (grid_bounds positive).2 with subnormal | ⟨normal, _⟩
    · have := exponent_ge r
      omega
    · rw [le_div_iff₀ step] at normal
      norm_num [binade] at normal ⊢
      exact normal
  have less := value_lt_of_exponent close
  have above : 0 ≤ q - value r := by linarith
  have above' : 0 ≤ q - binade * 2 ^ grid q := by linarith
  calc |q - value (rankOf q)| ≤ |q - binade * 2 ^ grid q| := (grid_nearest positive binade).1
    _ = q - binade * 2 ^ grid q := abs_of_nonneg above'
    _ < q - value r := by linarith
    _ = |q - value r| := (abs_of_nonneg above).symm

end Grid

/-- Rounding takes a value to the nearest rank. -/
theorem nearest_rankOf {q : ℚ} (nonneg : 0 ≤ q) : Nearest q (rankOf q) := by
  rcases nonneg.eq_or_lt with rfl | positive
  · have zero : rankOf 0 = 0 := rfl
    have exact : value 0 = 0 := value_eq_zero.mpr rfl
    constructor
    · intro r
      rw [zero, exact, sub_zero, abs_zero]
      exact abs_nonneg _
    · intro r _ _
      rw [zero]
  · constructor
    · intro r
      rcases lt_or_ge (exponent r) (grid q) with close | wide
      · exact (nearer_of_close positive close).le
      · obtain ⟨n, exact⟩ := exists_multiple wide
        rw [exact]
        exact (grid_nearest positive n).1
    · intro r other tie
      rcases lt_or_ge (exponent r) (grid q) with close | wide
      · exact absurd tie (nearer_of_close positive close).ne
      · obtain ⟨n, exact⟩ := exists_multiple wide
        apply (grid_nearest positive n).2
        · intro same
          exact other (value_inj (exact.trans same.symm))
        · rw [tie, exact]

end Formula.Number
