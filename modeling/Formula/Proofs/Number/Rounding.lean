import Mathlib.Algebra.Order.Floor.Semifield
import Mathlib.Data.Int.Log
import Mathlib.Data.Rat.Floor
import Mathlib.Tactic
import Formula.Number.Rounding

/-!
The values of the ranks, and rounding as a function of the exact value. Main statements: the value
of a rank is rounded to the rank itself, and only values below `2 ^ 52` are rounded to a rank
whose value is not whole.
-/

namespace Formula.Number

/-- The magnitude that a rank stands for. -/
def value (rank : Nat) : ℚ := significand rank * 2 ^ exponent rank

theorem significand_lt (rank : Nat) : significand rank < 2 * binade := by
  have := Nat.mod_lt rank (show 0 < binade by decide)
  unfold significand
  split <;> omega

theorem exponent_ge (rank : Nat) : -1074 ≤ exponent rank := by
  unfold exponent
  split
  · exact le_refl _
  · rename_i normal
    have := (Nat.le_div_iff_mul_le (show 0 < binade by decide)).mpr
      (show 1 * binade ≤ rank by omega)
    omega

section Scaled

variable {base num den : Nat} (positive : 0 < base) (power : Int)

include positive

theorem scaled_pos (nonzero : 0 < den) : 0 < (scaled base num den power).2 :=
  Nat.mul_pos nonzero (Nat.pow_pos positive)

theorem scaled_eq :
    ((scaled base num den power).1 : ℚ) / (scaled base num den power).2 =
      num / den * (base : ℚ) ^ power := by
  have nonzero : (base : ℚ) ≠ 0 := by exact_mod_cast positive.ne'
  rcases Int.le_total 0 power with nonneg | nonpos
  · obtain ⟨n, rfl⟩ := Int.eq_ofNat_of_zero_le nonneg
    simp [scaled, mul_div_right_comm]
  · obtain ⟨n, same⟩ := Int.eq_ofNat_of_zero_le (Int.neg_nonneg_of_nonpos nonpos)
    obtain rfl : power = -n := by omega
    simp only [scaled, neg_neg, Int.toNat_neg_natCast, Int.toNat_natCast, Nat.pow_eq, pow_zero,
      mul_one, Nat.cast_mul, Nat.cast_pow, zpow_neg, zpow_natCast]
    rw [div_mul_eq_div_div, div_eq_mul_inv _ ((base : ℚ) ^ n)]

end Scaled

theorem ratio_pos (rank : Nat) : 0 < (ratio rank).2 := scaled_pos (by decide) _ (by decide)

theorem ratio_eq (rank : Nat) : ((ratio rank).1 : ℚ) / (ratio rank).2 = value rank := by
  rw [ratio, scaled_eq (by decide), value]
  simp

/-- Whole numbers are the magnitudes that are written without a fraction. -/
theorem whole?_eq_some {rank n : Nat} : whole? rank = some n ↔ value rank = n := by
  have pos := ratio_pos rank
  have nonzero : ((ratio rank).2 : ℚ) ≠ 0 := by exact_mod_cast pos.ne'
  rw [← ratio_eq, div_eq_iff nonzero]
  norm_cast
  simp only [whole?]
  constructor
  · intro found
    split at found
    · rename_i divides
      obtain rfl : (ratio rank).1 / (ratio rank).2 = n := by simpa using found
      exact (Nat.div_mul_cancel (Nat.dvd_of_mod_eq_zero divides)).symm
    · cases found
  · intro same
    rw [same, Nat.mul_mod_left, if_pos rfl, Nat.mul_div_cancel _ pos]

theorem whole?_eq_none {rank : Nat} : whole? rank = none ↔ ∀ n : Nat, value rank ≠ n := by
  rw [Option.eq_none_iff_forall_ne_some]
  exact forall_congr' fun n => not_congr whole?_eq_some

/-- The nearest whole number, of two the even one. -/
def roundEven (q : ℚ) : Nat :=
  if q - ⌊q⌋₊ < 1 / 2 then ⌊q⌋₊
  else if 1 / 2 < q - ⌊q⌋₊ then ⌊q⌋₊ + 1
  else ⌊q⌋₊ + ⌊q⌋₊ % 2

theorem roundQuotient_eq (num : Nat) {den : Nat} (positive : 0 < den) :
    roundQuotient num den = roundEven (num / den) := by
  have cast : (0 : ℚ) < den := by exact_mod_cast positive
  have floor : ⌊(num / den : ℚ)⌋₊ = num / den := Nat.floor_div_eq_div num den
  have rest : (num / den : ℚ) - (num / den : Nat) = (num % den : Nat) / den := by
    rw [sub_eq_iff_eq_add, div_eq_iff cast.ne', add_mul, div_mul_cancel₀ _ cast.ne']
    exact_mod_cast (Nat.mod_add_div' num den).symm
  have below : (num % den : Nat) / (den : ℚ) < 1 / 2 ↔ 2 * (num % den) < den := by
    rw [div_lt_div_iff₀ cast two_pos, one_mul, mul_comm]
    exact_mod_cast Iff.rfl
  have above : 1 / 2 < (num % den : Nat) / (den : ℚ) ↔ den < 2 * (num % den) := by
    rw [div_lt_div_iff₀ two_pos cast, one_mul, mul_comm]
    exact_mod_cast Iff.rfl
  simp only [roundQuotient, roundEven, floor, rest, below, above]

theorem roundEven_natCast (n : Nat) : roundEven n = n := by
  simp [roundEven]

theorem le_roundEven {n : Nat} {q : ℚ} (bound : (n : ℚ) ≤ q) : n ≤ roundEven q := by
  have := Nat.le_floor bound
  unfold roundEven
  split_ifs <;> omega

theorem roundEven_le {n : Nat} {q : ℚ} (nonneg : 0 ≤ q) (bound : q ≤ n) : roundEven q ≤ n := by
  have low := Nat.floor_le nonneg
  rcases bound.lt_or_eq with less | rfl
  · have := (Nat.floor_lt nonneg).mpr less
    unfold roundEven
    split_ifs <;> omega
  · exact (roundEven_natCast n).le

theorem le_log {q : ℚ} {k : Int} (low : 2 ^ k ≤ q) : k ≤ Int.log 2 q :=
  (Int.zpow_le_iff_le_log (b := 2) one_lt_two ((zpow_pos two_pos k).trans_le low)).mp
    (by exact_mod_cast low)

theorem log_lt {q : ℚ} {k : Int} (positive : 0 < q) (high : q < 2 ^ k) : Int.log 2 q < k :=
  (Int.lt_zpow_iff_log_lt (b := 2) one_lt_two positive).mp (by exact_mod_cast high)

theorem log_eq_of_bounds {q : ℚ} {k : Int} (low : 2 ^ k ≤ q) (high : q < 2 ^ (k + 1)) :
    Int.log 2 q = k := by
  have above := le_log low
  have below := log_lt ((zpow_pos two_pos k).trans_le low) high
  omega

section Order

variable {num den : Nat} (hnum : 0 < num) (hden : 0 < den)

include hnum hden

/-- The lengths of two numbers give the order of their quotient up to one. -/
theorem order_bounds :
    (2 : ℚ) ^ ((num.log2 : Int) - den.log2 - 1) ≤ num / den ∧
      (num / den : ℚ) < 2 ^ ((num.log2 : Int) - den.log2 + 1) := by
  have positive : (0 : ℚ) < den := by exact_mod_cast hden
  have numLow : (2 : ℚ) ^ (num.log2 : Int) ≤ num := by
    exact_mod_cast Nat.log2_self_le hnum.ne'
  have numHigh : (num : ℚ) < 2 ^ ((num.log2 : Int) + 1) := by
    exact_mod_cast Nat.lt_log2_self
  have denLow : (2 : ℚ) ^ (den.log2 : Int) ≤ den := by
    exact_mod_cast Nat.log2_self_le hden.ne'
  have denHigh : (den : ℚ) < 2 ^ ((den.log2 : Int) + 1) := by
    exact_mod_cast Nat.lt_log2_self
  rw [le_div_iff₀ positive, div_lt_iff₀ positive]
  constructor
  · calc (2 : ℚ) ^ ((num.log2 : Int) - den.log2 - 1) * den
        ≤ 2 ^ ((num.log2 : Int) - den.log2 - 1) * 2 ^ ((den.log2 : Int) + 1) := by gcongr
      _ = 2 ^ (num.log2 : Int) := by rw [← zpow_add₀ two_ne_zero]; congr 1; ring
      _ ≤ num := numLow
  · calc (num : ℚ) < 2 ^ ((num.log2 : Int) + 1) := numHigh
      _ = 2 ^ ((num.log2 : Int) - den.log2 + 1) * 2 ^ (den.log2 : Int) := by
        rw [← zpow_add₀ two_ne_zero]; congr 1; ring
      _ ≤ 2 ^ ((num.log2 : Int) - den.log2 + 1) * den := by gcongr

theorem binaryOrder_eq : binaryOrder num den = Int.log 2 (num / den : ℚ) := by
  obtain ⟨low, high⟩ := order_bounds hnum hden
  have reaches (k : Int) : (scaled 2 num den (-k)).2 ≤ (scaled 2 num den (-k)).1 ↔
      (2 : ℚ) ^ k ≤ num / den := by
    have positive : (0 : ℚ) < (scaled 2 num den (-k)).2 := by
      exact_mod_cast scaled_pos two_pos (-k) hden
    rw [← Nat.cast_le (α := ℚ), ← one_le_div positive, scaled_eq two_pos, zpow_neg,
      ← div_eq_mul_inv, Nat.cast_ofNat, one_le_div (zpow_pos two_pos k)]
  symm
  simp only [binaryOrder, reaches]
  split
  · rename_i exact
    exact log_eq_of_bounds exact high
  · rename_i below
    exact log_eq_of_bounds low (by simpa using below)

end Order

/-- The power of two by which the magnitudes around a value are spaced. -/
def grid (q : ℚ) : Int := max (-1074) (Int.log 2 q - 52)

/-- The rank nearest to a value. -/
def rankOf (q : ℚ) : Nat :=
  if q = 0 then 0 else (grid q + 1074).toNat * binade + roundEven (q / 2 ^ grid q)

theorem nearestRank_eq (num : Nat) {den : Nat} (hden : 0 < den) :
    nearestRank num den = rankOf (num / den) := by
  by_cases zero : num = 0
  · simp [nearestRank, rankOf, zero]
  · have nonzero : (num / den : ℚ) ≠ 0 := by
      have : (den : ℚ) ≠ 0 := by exact_mod_cast hden.ne'
      have : (num : ℚ) ≠ 0 := by exact_mod_cast zero
      positivity
    rw [nearestRank, rankOf, if_neg zero, if_neg nonzero]
    simp only [binaryOrder_eq (Nat.pos_of_ne_zero zero) hden,
      roundQuotient_eq _ (scaled_pos two_pos _ hden), scaled_eq two_pos, grid]
    rw [zpow_neg, div_eq_mul_inv (num / den : ℚ)]
    rfl

/-- What a rank is made of: a power of two and a multiple of it. The largest multiple belongs to
the next power already. -/
theorem value_compose {power : Int} (low : -1074 ≤ power) {m : Nat}
    (normal : binade ≤ m ∨ power = -1074) (small : m ≤ 2 * binade) :
    value ((power + 1074).toNat * binade + m) = m * 2 ^ power := by
  obtain ⟨k, rfl⟩ : ∃ k : Nat, power = k - 1074 := ⟨(power + 1074).toNat, by omega⟩
  have offset : ((k : Int) - 1074 + 1074).toNat = k := by omega
  rw [offset, value, significand, exponent]
  rcases small.lt_or_eq with less | rfl
  · by_cases subnormal : k * binade + m < binade
    · have : k = 0 := by unfold binade at *; omega
      subst this
      rw [Nat.zero_mul, Nat.zero_add] at subnormal ⊢
      rw [if_pos subnormal, if_pos subnormal]
      norm_num
    · have inside : binade ≤ m := by unfold binade at *; omega
      have quotient : (k * binade + m) / binade = k + 1 := by unfold binade at *; omega
      have rest : (k * binade + m) % binade + binade = m := by unfold binade at *; omega
      rw [if_neg subnormal, if_neg subnormal, quotient, rest]
      congr 2
      push_cast
      ring
  · have carry : ¬k * binade + 2 * binade < binade := by unfold binade; omega
    have quotient : (k * binade + 2 * binade) / binade = k + 2 := by unfold binade; omega
    have rest : (k * binade + 2 * binade) % binade + binade = binade := by unfold binade; omega
    rw [if_neg carry, if_neg carry, quotient, rest]
    have shift : ((k + 2 : Nat) : Int) - 1075 = (k - 1074) + 1 := by push_cast; ring
    rw [shift, zpow_add_one₀ two_ne_zero]
    push_cast
    ring

section Grid

variable {q : ℚ} (positive : 0 < q)

include positive

theorem grid_bounds : q / 2 ^ grid q < 2 ^ 53 ∧
    (grid q = -1074 ∨ 2 ^ 52 ≤ q / 2 ^ grid q ∧ grid q = Int.log 2 q - 52) := by
  have low : (2 : ℚ) ^ Int.log 2 q ≤ q := by
    exact_mod_cast Int.zpow_log_le_self (b := 2) one_lt_two positive
  have high : q < (2 : ℚ) ^ (Int.log 2 q + 1) := by
    exact_mod_cast Int.lt_zpow_succ_log_self (b := 2) one_lt_two q
  have step : (0 : ℚ) < 2 ^ grid q := zpow_pos two_pos _
  rw [div_lt_iff₀ step, le_div_iff₀ step]
  constructor
  · calc q < (2 : ℚ) ^ (Int.log 2 q + 1) := high
      _ ≤ 2 ^ ((53 : Int) + grid q) := by
        apply zpow_le_zpow_right₀ one_le_two
        unfold grid
        omega
      _ = 2 ^ 53 * 2 ^ grid q := by rw [zpow_add₀ two_ne_zero]; norm_cast
  · rcases le_or_gt (Int.log 2 q - 52) (-1074) with subnormal | normal
    · exact .inl (max_eq_left subnormal)
    · have same : grid q = Int.log 2 q - 52 := max_eq_right normal.le
      refine .inr ⟨?_, same⟩
      rw [same]
      calc (2 : ℚ) ^ 52 * 2 ^ (Int.log 2 q - 52) = 2 ^ Int.log 2 q := by
            rw [← zpow_natCast, ← zpow_add₀ two_ne_zero]; congr 1; push_cast; ring
        _ ≤ q := low

/-- Rounding takes a value to a multiple of its grid. -/
theorem value_rankOf : value (rankOf q) = roundEven (q / 2 ^ grid q) * 2 ^ grid q := by
  obtain ⟨high, low⟩ := grid_bounds positive
  have nonneg : 0 ≤ q / 2 ^ grid q := by positivity
  rw [rankOf, if_neg positive.ne']
  apply value_compose (le_max_left _ _)
  · rcases low with subnormal | ⟨normal, _⟩
    · exact .inr subnormal
    · exact .inl (le_roundEven (by norm_num [binade] at normal ⊢; exact normal))
  · exact roundEven_le nonneg (by norm_num [binade] at high ⊢; exact high.le)

/-- Only small values are rounded to a rank that is not whole, and such values are not whole
themselves. -/
theorem lt_of_value_rankOf (fraction : ∀ n : Nat, value (rankOf q) ≠ n) :
    q < 2 ^ 52 ∧ ∀ n : Nat, q ≠ n := by
  rw [value_rankOf positive] at fraction
  have below : grid q < 0 := by
    by_contra nonneg
    obtain ⟨k, same⟩ := Int.eq_ofNat_of_zero_le (not_lt.mp nonneg)
    refine fraction (roundEven (q / 2 ^ grid q) * 2 ^ k) ?_
    rw [same]
    norm_cast
  constructor
  · by_contra large
    have order : 52 ≤ Int.log 2 q := le_log (not_lt.mp large)
    unfold grid at below
    omega
  · rintro n rfl
    obtain ⟨k, same⟩ := Int.eq_ofNat_of_zero_le (Int.neg_nonneg_of_nonpos below.le)
    have exact : (n : ℚ) / 2 ^ grid (n : ℚ) = (n * 2 ^ k : Nat) := by
      rw [div_eq_mul_inv, ← zpow_neg, same]
      norm_cast
    refine fraction n ?_
    rw [exact, roundEven_natCast, ← exact, div_mul_cancel₀ _ (zpow_ne_zero _ two_ne_zero)]

end Grid

theorem grid_subnormal {rank : Nat} (nonzero : 0 < rank) (small : rank < binade) :
    grid (rank * 2 ^ (-1074 : Int)) = -1074 := by
  have cast : (0 : ℚ) < rank := by exact_mod_cast nonzero
  have below : (rank : ℚ) * 2 ^ (-1074 : Int) < 2 ^ (-1022 : Int) := by
    calc (rank : ℚ) * 2 ^ (-1074 : Int) < 2 ^ (52 : Int) * 2 ^ (-1074 : Int) := by
          gcongr
          exact_mod_cast small
      _ = 2 ^ (-1022 : Int) := by rw [← zpow_add₀ two_ne_zero]; rfl
  have order := log_lt (by positivity) below
  unfold grid
  omega

theorem grid_normal {m : Nat} (low : binade ≤ m) (high : m < 2 * binade) {power : Int}
    (least : -1074 ≤ power) : grid (m * 2 ^ power) = power := by
  have step : (0 : ℚ) < 2 ^ power := zpow_pos two_pos _
  have order : Int.log 2 ((m : ℚ) * 2 ^ power) = 52 + power := by
    apply log_eq_of_bounds
    · calc (2 : ℚ) ^ (52 + power) = 2 ^ (52 : Int) * 2 ^ power := zpow_add₀ two_ne_zero _ _
        _ ≤ m * 2 ^ power := by
          gcongr
          exact_mod_cast low
    · calc (m : ℚ) * 2 ^ power < 2 ^ (53 : Int) * 2 ^ power := by
            gcongr
            exact_mod_cast high
        _ = 2 ^ (52 + power + 1) := by rw [← zpow_add₀ two_ne_zero]; congr 1; ring
  unfold grid
  omega

/-- The value of a rank is rounded to the rank itself. -/
theorem rankOf_value (rank : Nat) : rankOf (value rank) = rank := by
  have cancel (m : Nat) (power : Int) : (m : ℚ) * 2 ^ power / 2 ^ power = m :=
    mul_div_cancel_right₀ _ (zpow_ne_zero _ two_ne_zero)
  by_cases zero : rank = 0
  · simp [zero, value, significand, rankOf]
  by_cases subnormal : rank < binade
  · have here := grid_subnormal (Nat.pos_of_ne_zero zero) subnormal
    have nonzero : (rank : ℚ) * 2 ^ (-1074 : Int) ≠ 0 := by
      have : (rank : ℚ) ≠ 0 := by exact_mod_cast zero
      positivity
    rw [value, significand, exponent, if_pos subnormal, if_pos subnormal, rankOf, if_neg nonzero,
      here, cancel, roundEven_natCast]
    exact Nat.zero_add rank
  · have low : binade ≤ rank % binade + binade := Nat.le_add_left _ _
    have high : rank % binade + binade < 2 * binade := by
      have := Nat.mod_lt rank (show 0 < binade by decide)
      omega
    have least := exponent_ge rank
    rw [exponent, if_neg subnormal] at least
    have here := grid_normal low high least
    have nonzero : ((rank % binade + binade : Nat) : ℚ) *
        2 ^ (((rank / binade : Nat) : Int) - 1075) ≠ 0 := by
      have : ((rank % binade + binade : Nat) : ℚ) ≠ 0 :=
        Nat.cast_ne_zero.mpr (Nat.lt_of_lt_of_le (show 0 < binade by decide) low).ne'
      positivity
    rw [value, significand, exponent, if_neg subnormal, if_neg subnormal, rankOf, if_neg nonzero,
      here, cancel, roundEven_natCast]
    have parts := Nat.div_add_mod' rank binade
    obtain ⟨k, quotient⟩ : ∃ k, rank / binade = k + 1 := ⟨rank / binade - 1, by omega⟩
    have offset : (((k + 1 : Nat) : Int) - 1075 + 1074).toNat = k := by omega
    have together : k * binade + (rank % binade + binade) = rank := by
      rw [quotient, Nat.add_mul, Nat.one_mul] at parts
      rw [Nat.add_comm (rank % binade), ← Nat.add_assoc]
      exact parts
    simpa only [quotient, offset] using together

end Formula.Number
