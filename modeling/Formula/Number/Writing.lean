import Formula.Number.Shortest

/-!
Writing a number. A whole number is written with all its digits and without point or exponent,
both zeros as `0`; any other number by its shortest decimal, positionally down to `0.0001` and
with an exponent of at least two digits below.
-/

namespace Formula.Number

def zeros (count : Nat) : List Char := List.replicate count '0'

/-- Digits without the zeros at their end. -/
def significant (digits : List Char) : List Char := (digits.reverse.dropWhile (· == '0')).reverse

/-- Digits with the point after the first `point` of them; a negative `point` counts zeros after
it. -/
def positional (digits : List Char) (point : Int) : List Char :=
  if point ≤ 0 then '0' :: '.' :: zeros (-point).toNat ++ digits
  else digits.take point.toNat ++ '.' :: digits.drop point.toNat

/-- One digit before the point, the others after it, then the exponent. -/
def scientific (digits : List Char) (power : Nat) : List Char :=
  let exponent := 'e' :: '-' :: (Nat.toDigits 10 power).leftpad 2 '0'
  match digits with
  | first :: d :: rest => first :: '.' :: d :: rest ++ exponent
  | digits => digits ++ exponent

/-- The text of a magnitude that is no whole number. -/
def fractionText (rank : Nat) : List Char :=
  let (digits, power) := shortest rank
  let written := Nat.toDigits 10 digits
  let point := written.length + power
  if -4 < point then positional (significant written) point
  else scientific (significant written) (1 - point).toNat

def signed (negative : Bool) (text : List Char) : List Char :=
  if negative then '-' :: text else text

def toChars : Number → List Char
  | .nan => "nan".toList
  | .infinite negative => signed negative "inf".toList
  | .finite negative rank =>
    match whole? rank with
    | some n => signed (negative && n != 0) (Nat.toDigits 10 n)
    | none => signed negative (fractionText rank)

def text (x : Number) : String := String.ofList x.toChars

end Formula.Number
