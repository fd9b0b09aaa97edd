import Formula.Number.Basic

/-!
Rounding of exact ratios to the nearest number. Of two numbers that are equally near, the one of
even rank is taken; what lies half a step or more above the largest finite number becomes
infinite.
-/

namespace Formula.Number

/-- The quotient rounded to the nearest whole number, a half to the even one. -/
def roundQuotient (num den : Nat) : Nat :=
  let quotient := num / den
  let rest := num % den
  if 2 * rest < den then quotient
  else if den < 2 * rest then quotient + 1
  else quotient + quotient % 2

/-- The largest `k` with `2 ^ k ≤ num / den`, for a positive ratio. -/
def binaryOrder (num den : Nat) : Int :=
  let guess : Int := num.log2 - den.log2
  let (n, d) := scaled 2 num den (-guess)
  if d ≤ n then guess else guess - 1

/-- The rank nearest to a ratio; without an upper end, ranks continue beyond the finite ones. A
carry of the significand into the next power of two is the step to the next rank like any other.
-/
def nearestRank (num den : Nat) : Nat :=
  if num = 0 then 0
  else
    let power := max (-1074) (binaryOrder num den - 52)
    let (n, d) := scaled 2 num den (-power)
    (power + 1074).toNat * binade + roundQuotient n d

def ofRank (negative : Bool) (rank : Nat) : Number :=
  if h : rank < magnitudes then .finite negative ⟨rank, h⟩ else .infinite negative

/-- The number nearest to a ratio. -/
def ofRatio (negative : Bool) (num den : Nat) : Number := ofRank negative (nearestRank num den)

def ofDyadic (negative : Bool) (significand : Nat) (power : Int) : Number :=
  let (num, den) := scaled 2 significand 1 power
  ofRatio negative num den

/-- How many decimal digits a whole number has. -/
def decimalLength (n : Nat) : Nat := (Nat.toDigits 10 n).length

/-- The number nearest to `digits * 10 ^ power`. Values far outside the range of the numbers are
settled by their size alone, so that no power of ten gets out of hand. -/
def ofDecimal (negative : Bool) (digits : Nat) (power : Int) : Number :=
  let size := decimalLength digits + power
  if digits = 0 || size < -330 then .zero negative
  else if 310 < size then .infinite negative
  else
    let (num, den) := scaled 10 digits 1 power
    ofRatio negative num den

end Formula.Number
