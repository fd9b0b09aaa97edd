import Formula.Number.Rounding
import Formula.Text.Digit
import Formula.Text.Quoted

/-!
Reading a number: an optional sign, then decimal digits of any script with at most one point and
an optional exponent, or a name of infinity or of NaN in any case. The value is rounded to
nearest.
-/

namespace Formula.Number

open Formula.Text

/-- The decimal digits that the text starts with, and what follows them. -/
def digitRun : List Char → List Nat × List Char
  | [] => ([], [])
  | c :: rest =>
    match digitValue? c with
    | some digit => let (digits, after) := digitRun rest; (digit :: digits, after)
    | none => ([], c :: rest)

def ofDigits (digits : List Nat) : Nat := digits.foldl (fun n digit => 10 * n + digit) 0

/-- Takes an optional sign off a text; `true` stands for a minus. -/
def takeSign : List Char → Bool × List Char
  | '+' :: rest => (false, rest)
  | '-' :: rest => (true, rest)
  | text => (false, text)

/-- The exponent that ends a numeral: nothing, or `e` with a signed run of digits. -/
def exponentOf? : List Char → Option Int
  | [] => some 0
  | e :: text =>
    let (negative, digits) := takeSign text
    match digitRun digits with
    | (d :: ds, []) =>
      if e = 'e' || e = 'E' then
        some (if negative then -(ofDigits (d :: ds) : Int) else ofDigits (d :: ds))
      else none
    | _ => none

/-- The digits before and after the point, and what follows them. -/
def splitPoint (text : List Char) : List Nat × List Nat × List Char :=
  match digitRun text with
  | (whole, '.' :: rest) => (whole, digitRun rest)
  | (whole, rest) => (whole, [], rest)

def ofNumeral? (negative : Bool) (text : List Char) : Option Number :=
  let (whole, fraction, rest) := splitPoint text
  if whole.isEmpty && fraction.isEmpty then none
  else (exponentOf? rest).map fun power =>
    ofDecimal negative (ofDigits (whole ++ fraction)) (power - fraction.length)

/-- Reads the whole text as a number. -/
def ofText? (text : List Char) : Option Number :=
  let (negative, body) := takeSign text
  let name := body.map Char.toLower
  if name = "inf".toList || name = "infinity".toList then some (.infinite negative)
  else if name = "nan".toList then some .nan
  else ofNumeral? negative body

/-- What is said of a text that is no number. -/
def refusal (text : String) : String := "Not a number: " ++ quoted text

end Formula.Number
