import Formula.Number.Rounding

/-!
The shortest decimal that reads back as a given magnitude. Of the decimals with the fewest
digits the nearest one is taken, and of two equally near ones that with an even last digit.
-/

namespace Formula.Number

/-- The largest `k` with `10 ^ k ≤ num / den`, for a positive ratio. -/
def decimalOrder (num den : Nat) : Int :=
  if den ≤ num then decimalLength (num / den) - 1
  else -(decimalLength ((den - 1) / num) : Int)

/-- Whether `digits * 10 ^ power` rounds to the rank. -/
def readsBack (rank digits : Nat) (power : Int) : Bool :=
  let (num, den) := scaled 10 digits 1 power
  nearestRank num den == rank

/-- The two whole numbers around a ratio, the nearer one first. -/
def neighbours (num den : Nat) : List Nat :=
  let low := num / den
  if roundQuotient num den = low then [low, low + 1] else [low + 1, low]

/-- A decimal with at most `count` digits that reads back as the rank. -/
def withDigits? (rank count : Nat) : Option (Nat × Int) :=
  let (num, den) := ratio rank
  let power := decimalOrder num den - (count - 1)
  let (n, d) := scaled 10 num den (-power)
  ((neighbours n d).find? fun digits => readsBack rank digits power).map (·, power)

/-- The magnitude itself as a decimal: `2 ^ -k` is `5 ^ k * 10 ^ -k`. -/
def exactDecimal (rank : Nat) : Nat × Int :=
  if 0 ≤ exponent rank then (significand rank * Nat.pow 2 (exponent rank).toNat, 0)
  else (significand rank * Nat.pow 5 (-exponent rank).toNat, exponent rank)

/-- Seventeen digits are enough for every magnitude; the exact decimal stands behind them. -/
def shortest (rank : Nat) : Nat × Int :=
  ((List.range' 1 17).findSome? (withDigits? rank)).getD (exactDecimal rank)

end Formula.Number
