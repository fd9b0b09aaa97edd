/-!
Numbers are IEEE doubles. A finite one is a sign and a rank: the ranks count the finite magnitudes
upward from zero, so that neighbouring ranks are neighbouring doubles. Each rank stands for
`significand * 2 ^ exponent`.
-/

namespace Formula

/-- How many magnitudes lie between two neighbouring powers of two: `2 ^ 52`. -/
abbrev binade : Nat := 0x10000000000000

/-- How many finite magnitudes there are: 2046 binades above the subnormal ones. -/
abbrev magnitudes : Nat := 2047 * binade

inductive Number where
  | nan
  | infinite (negative : Bool)
  | finite (negative : Bool) (rank : Fin magnitudes)
  deriving DecidableEq

namespace Number

def zero (negative : Bool) : Number := .finite negative 0

def significand (rank : Nat) : Nat :=
  if rank < binade then rank else rank % binade + binade

def exponent (rank : Nat) : Int :=
  if rank < binade then -1074 else (rank / binade : Nat) - 1075

/-- The ratio `num / den` times a power of `base`. -/
def scaled (base num den : Nat) (power : Int) : Nat × Nat :=
  (num * Nat.pow base power.toNat, den * Nat.pow base (-power).toNat)

/-- The magnitude of a rank as a ratio of whole numbers. -/
def ratio (rank : Nat) : Nat × Nat := scaled 2 (significand rank) 1 (exponent rank)

/-- Whether the sign bit is set; NaN has one form, without sign. -/
def isNegative : Number → Bool
  | .nan => false
  | .infinite negative => negative
  | .finite negative _ => negative

def isZero : Number → Bool
  | .finite _ rank => rank.val == 0
  | _ => false

/-- The whole number that a magnitude is, if it is one. -/
def whole? (rank : Nat) : Option Nat :=
  let (num, den) := ratio rank
  if num % den = 0 then some (num / den) else none

def negate : Number → Number
  | .nan => .nan
  | .infinite negative => .infinite !negative
  | .finite negative rank => .finite (!negative) rank

/-- Equality of values: the zeros are equal, and NaN equals nothing. -/
def same : Number → Number → Bool
  | .infinite a, .infinite b => a == b
  | .finite a m, .finite b n => m == n && (a == b || m.val == 0)
  | _, _ => false

/-- The sign bit of the interchange format. -/
abbrev signBit : Nat := 0x8000000000000000

/-- The 64 bits of the interchange format. -/
def bits : Number → Nat
  | .nan => 0x7FF8000000000000
  | .infinite negative => negative.toNat * signBit + magnitudes
  | .finite negative rank => negative.toNat * signBit + rank

/-- The number with these bits; every bit pattern of a NaN is read as the one NaN. -/
def ofBits (word : Nat) : Number :=
  let negative := word / signBit % 2 == 1
  let rank := word % signBit
  if h : rank < magnitudes then .finite negative ⟨rank, h⟩
  else if rank = magnitudes then .infinite negative
  else .nan

theorem ofBits_bits (x : Number) : ofBits x.bits = x := by
  cases x with
  | nan => decide
  | infinite negative => cases negative <;> decide
  | finite negative rank =>
    obtain ⟨rank, bound⟩ := rank
    have small : rank < signBit := Nat.lt_trans bound (by decide)
    have high : (negative.toNat * signBit + rank) / signBit = negative.toNat := by
      unfold signBit at *
      omega
    have low : (negative.toNat * signBit + rank) % signBit = rank := by
      unfold signBit at *
      omega
    simp only [bits, ofBits, high, low, bound, dite_true]
    cases negative <;> rfl

end Number

end Formula
