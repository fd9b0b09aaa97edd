import Formula.Number.Rounding

/-!
The five operations. Sum, difference, product and quotient are the exact results rounded to
nearest; division by zero and powers without a value give infinities and NaN as the IEEE
standard has it.
-/

namespace Formula.Number

/-- A magnitude with its sign, as a multiple of `2 ^ power`. -/
def multipleOf (power : Int) (negative : Bool) (rank : Nat) : Int :=
  let m := significand rank * Nat.pow 2 (exponent rank - power).toNat
  if negative then -(m : Int) else m

def add : Number → Number → Number
  | .finite a m, .finite b n =>
    let power := min (exponent m) (exponent n)
    let sum := multipleOf power a m + multipleOf power b n
    if sum = 0 then .zero (a && b) else ofDyadic (sum < 0) sum.natAbs power
  | .infinite a, .infinite b => if a = b then .infinite a else .nan
  | .infinite a, .finite _ _ => .infinite a
  | .finite _ _, .infinite b => .infinite b
  | _, _ => .nan

def sub (x y : Number) : Number := x.add y.negate

def mul : Number → Number → Number
  | .finite a m, .finite b n =>
    ofDyadic (a ^^ b) (significand m * significand n) (exponent m + exponent n)
  | .infinite a, .infinite b => .infinite (a ^^ b)
  | .infinite a, .finite b n => if n.val = 0 then .nan else .infinite (a ^^ b)
  | .finite a m, .infinite b => if m.val = 0 then .nan else .infinite (a ^^ b)
  | _, _ => .nan

/-- The quotient by a number that is not zero. -/
def quotient : Number → Number → Number
  | .finite a m, .finite b n =>
    let (num, den) := scaled 2 (significand m) (significand n) (exponent m - exponent n)
    ofRatio (a ^^ b) num den
  | .infinite a, .finite b _ => .infinite (a ^^ b)
  | .finite a _, .infinite b => .zero (a ^^ b)
  | _, _ => .nan

/-- Zero and NaN have no quotient by zero; any other number gives an infinity, negative when
exactly one of the two has its sign bit set. -/
def div (x y : Number) : Number :=
  if y.isZero then
    if x.isZero || x == .nan then .nan else .infinite (x.isNegative ^^ y.isNegative)
  else x.quotient y

def isInteger : Number → Bool
  | .finite _ rank => (whole? rank).isSome
  | _ => false

def isOddInteger : Number → Bool
  | .finite _ rank => (whole? rank).any (· % 2 == 1)
  | _ => false

def isFinite : Number → Bool
  | .finite _ _ => true
  | _ => false

def toFloat (x : Number) : Float := Float.ofBits x.bits.toUInt64

def ofFloat (x : Float) : Number := ofBits x.toBits.toNat

/-- The power as the machine computes it. -/
def machinePow (x y : Number) : Number := ofFloat (x.toFloat.pow y.toFloat)

/-- The infinity that stands for a power too large to be a number: negative for a base with its
sign bit set and an odd exponent. -/
def powerInfinity (base exponent : Number) : Number :=
  .infinite (base.isNegative && exponent.isOddInteger)

/-- A finite power with a pole (zero to a negative power) or too large a value is an infinity; a
negative base has no power with a fractional exponent. -/
def pow (x y : Number) : Number :=
  if x.isFinite && y.isFinite then
    if x.isZero then
      if y.isNegative && !y.isZero then powerInfinity x y else machinePow x y
    else if x.isNegative && !y.isInteger then .nan
    else if (machinePow x y).isFinite then machinePow x y
    else powerInfinity x y
  else machinePow x y

end Formula.Number
