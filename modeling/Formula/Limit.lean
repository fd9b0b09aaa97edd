import Formula.Number.Reading
import Formula.Text.Blank

/-!
The limit on nested parentheses: a whole number from 1 on, read from a setting. Its texts are a
sign, padding, digits that single underscores may group, and zeros behind a point.
-/

namespace Formula.Limit

open Text

/-- The limit where none is set. -/
def standard : Int := 200

/-- Decimal digits of which single underscores may separate any two. -/
def groupedDigits? (value? : Char → Option Nat) : List Char → Option (List Nat)
  | [] => none
  | [c] => (value? c).map ([·])
  | c :: '_' :: rest => do return (← value? c) :: (← groupedDigits? value? rest)
  | c :: rest => do return (← value? c) :: (← groupedDigits? value? rest)

/-- Grouped digits under an optional sign. -/
def integer? (value? : Char → Option Nat) (text : List Char) : Option Int :=
  let (negative, digits) := Number.takeSign text
  (groupedDigits? value? digits).map fun digits =>
    if negative then -(Number.ofDigits digits : Int) else Number.ofDigits digits

/-- Whether a text is a point with nothing but zeros behind it, at least one. -/
def isZeroFraction : List Char → Bool
  | '.' :: zeros => !zeros.isEmpty && zeros.all (· == '0')
  | _ => false

/-- What the padding in front of a number consists of once it has begun with a zero. -/
def isPadding (c : Char) : Bool := c == '0' || c == '_'

/-- Digits without padding, taken as a number. -/
def natural? (text : List Char) : Option Int :=
  (groupedDigits? asciiDigitValue? text).map fun digits => (Number.ofDigits digits : Int)

/-- A number behind a minus sign that follows padding: one underscore at will, then zero or digits
that do not begin with it. -/
def negative? (text : List Char) : Option Int :=
  let digits := if text.head? = some '_' then text.tail else text
  if digits.head? = some '0' && digits.length ≠ 1 then none else (natural? digits).map (- ·)

/-- A number behind its sign. A zero in front begins the padding, which goes on over all zeros and
underscores; if nothing follows, its last character is the number. Behind padding a number may
have a minus sign of its own, but it has only one. -/
def unsigned? (signed : Bool) (text : List Char) : Option Int :=
  if text.head? = some '0' then
    match text.dropWhile isPadding with
    | [] => if text.getLast? = some '0' then some 0 else none
    | '-' :: digits => if signed then none else negative? digits
    | digits => natural? digits
  else natural? text

/-- The whole number that a setting denotes. -/
def ofSetting? (text : List Char) : Option Int :=
  let fraction := text.dropWhile (· != '.')
  if fraction.isEmpty || isZeroFraction fraction then
    match text.takeWhile (· != '.') with
    | '+' :: digits => unsigned? false digits
    | '-' :: digits => (unsigned? true digits).map (- ·)
    | digits => unsigned? false digits
  else none

/-- Why a value is no limit. -/
inductive Refusal where
  | belowOne
  | unreadable
  | tooLarge
  | notWhole
  | notFinite
  | noNumber
  deriving DecidableEq

def Refusal.kind : Refusal → String
  | .belowOne => "greater_than_equal"
  | .unreadable => "int_parsing"
  | .tooLarge => "int_parsing_size"
  | .notWhole => "int_from_float"
  | .notFinite => "finite_number"
  | .noNumber => "int_type"

/-- What can be offered as a limit. -/
inductive Value where
  | whole (n : Int)
  | real (x : Number)
  | text (s : String)
  | other

/-- The most digits that the text of a whole number may have. -/
def digitLimit : Nat := 4300

def check (n : Int) : Except Refusal Int := if 1 ≤ n then .ok n else .error .belowOne

/-- Like `check`, for numbers whose magnitude has to stay below a bound. -/
def checkBelow (bound : Nat) (n : Int) : Except Refusal Int :=
  if n.natAbs < bound then check n else .error .tooLarge

/-- A real number has to be whole and to fit into 64 bits. -/
def ofNumber : Number → Except Refusal Int
  | .finite negative rank =>
    match Number.whole? rank with
    | some n => checkBelow Number.signBit (if negative then -(n : Int) else n)
    | none => .error .notWhole
  | _ => .error .notFinite

def ofValue : Value → Except Refusal Int
  | .whole n => check n
  | .real x => ofNumber x
  | .text s =>
    match ofSetting? (trim isWhiteSpace s.toList) with
    | some n => checkBelow (Nat.pow 10 digitLimit) n
    | none => .error .unreadable
  | .other => .error .noNumber

/-- The setting without the blanks around it. -/
def stripped (setting : Option String) : String :=
  String.ofList (trim isBlank (setting.getD "").toList)

/-- The limit that a setting gives, or its stripped text if it gives none. Without a setting, or
with an empty one, the standard limit holds. -/
def ofEnvironment (setting : Option String) : Except String Int :=
  let raw := stripped setting
  if raw.isEmpty then .ok standard
  else
    match ofValue (.text raw) with
    | .ok n => .ok n
    | .error _ => .error raw

/-- The limit in force under a setting; one that cannot be read leaves the standard limit. -/
def load (setting : Option String) : Int :=
  match ofEnvironment setting with
  | .ok n => n
  | .error _ => standard

end Formula.Limit
