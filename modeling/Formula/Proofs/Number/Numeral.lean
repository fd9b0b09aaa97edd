import Formula.Number.Reading
import Formula.Proofs.Text.Classes

/-!
Numerals without sign and exponent. Main statement: of the runs of numerals, those are no number
that hold a numeric character other than a decimal digit, a second point, or no digit at all.
-/

namespace Formula

open Text

namespace Text

def isDecimal (c : Char) : Bool := (digitValue? c).isSome

theorem isDecimal_point : isDecimal '.' = false := by decide

section Ascii

variable {c : Char} (digit : c.isDigit)

include digit

theorem digitValue?_of_isDigit : digitValue? c = some (c.toNat - 48) := by
  obtain ⟨low, high⟩ : 48 ≤ c.toNat ∧ c.toNat ≤ 57 := Char.isDigit_iff_toNat.mp digit
  have first : digitRanges = (0x30, 0x39) :: digitRanges.tail := rfl
  rw [digitValue?, first, rangeOf?, if_neg (Nat.not_lt.mpr low), if_pos high]
  simp only [Option.map_some, Option.some.injEq]
  omega

theorem isDecimal_of_isDigit : isDecimal c := by
  simp [isDecimal, digitValue?_of_isDigit digit]

theorem isNumeral_of_isDigit : isNumeral c := by
  obtain ⟨low, high⟩ : 48 ≤ c.toNat ∧ c.toNat ≤ 57 := Char.isDigit_iff_toNat.mp digit
  have numeric : isNumeric c := by
    have first : numericRanges = (0x30, 0x39) :: numericRanges.tail := rfl
    rw [isNumeric, first, inRanges]
    simp [low, high]
  have noLetter : isLetter c = false := by
    have first : letterRanges = (0x41, 0x5A) :: letterRanges.tail := rfl
    have below : ¬0x41 ≤ c.toNat := by omega
    rw [isLetter, first, inRanges]
    simp [below]
  simp [isNumeral, numeric, noLetter]

end Ascii

/-- Only from a letter does lower case lead to a letter. -/
theorem isLetter_of_toLower {c d : Char} (lower : c.toLower = d) (letter : isLetter d) :
    isLetter c := by
  by_cases upper : 0x41 ≤ c.toNat ∧ c.toNat ≤ 0x5A
  · have first : letterRanges = (0x41, 0x5A) :: letterRanges.tail := rfl
    rw [isLetter, first, inRanges]
    simp [upper.1, upper.2]
  · have same : c.toLower = c := by
      unfold Char.toLower
      rw [dif_neg]
      exact upper
    rwa [← same, lower]

end Text

namespace Number

/-- What keeps a run of numerals from being a number. -/
def Malformed (run : List Char) : Prop :=
  (∃ c ∈ run, isNumeric c ∧ isDecimal c = false) ∨ 1 < run.count '.' ∨
    ∀ c ∈ run, isDecimal c = false

/-- The values of the digits in a text. -/
def digitValues (text : List Char) : List Nat := text.filterMap digitValue?

theorem digitValues_eq_nil {digits : List Char} (inside : ∀ c ∈ digits, isDecimal c) :
    digitValues digits = [] ↔ digits = [] := by
  constructor
  · intro none
    apply List.eq_nil_iff_forall_not_mem.mpr
    intro c mem
    have := List.filterMap_eq_nil_iff.mp none c mem
    have := inside c mem
    simp_all [isDecimal]
  · rintro rfl
    rfl

theorem length_digitValues {digits : List Char} (inside : ∀ c ∈ digits, isDecimal c) :
    (digitValues digits).length = digits.length := by
  induction digits with
  | nil => rfl
  | cons c digits ih =>
    obtain ⟨value, isDigit⟩ := Option.isSome_iff_exists.mp (inside c (by simp))
    have later := ih fun d mem => inside d (by simp [mem])
    simpa [digitValues, isDigit] using later

theorem digitRun_append {digits rest : List Char} (inside : ∀ c ∈ digits, isDecimal c)
    (ends : ∀ c ∈ rest.head?, isDecimal c = false) :
    digitRun (digits ++ rest) = (digitValues digits, rest) := by
  induction digits with
  | nil =>
    cases rest with
    | nil => rfl
    | cons c rest =>
      have noDigit : digitValue? c = none := by simpa [isDecimal] using ends c rfl
      simp [digitRun, digitValues, noDigit]
  | cons c digits ih =>
    obtain ⟨value, isDigit⟩ := Option.isSome_iff_exists.mp (inside c (by simp))
    simp [digitRun, digitValues, isDigit, ih fun d mem => inside d (by simp [mem])]

section Split

variable {whole fraction rest : List Char} (wholeInside : ∀ c ∈ whole, isDecimal c)

include wholeInside

theorem splitPoint_whole (ends : ∀ c ∈ rest.head?, isDecimal c = false)
    (noPoint : '.' ∉ rest.head?) : splitPoint (whole ++ rest) = (digitValues whole, [], rest) := by
  rw [splitPoint, digitRun_append wholeInside ends]
  split
  · simp_all
  · simp_all

theorem splitPoint_point (fractionInside : ∀ c ∈ fraction, isDecimal c)
    (ends : ∀ c ∈ rest.head?, isDecimal c = false) :
    splitPoint (whole ++ '.' :: (fraction ++ rest)) =
      (digitValues whole, digitValues fraction, rest) := by
  have point : ∀ c ∈ ('.' :: (fraction ++ rest)).head?, isDecimal c = false := by
    rintro c ⟨⟩
    exact isDecimal_point
  rw [splitPoint, digitRun_append wholeInside point]
  simp only [digitRun_append fractionInside ends]

end Split

theorem exponentOf?_numeral {c : Char} (numeral : isNumeral c) (rest : List Char) :
    exponentOf? (c :: rest) = none := by
  have noLetter := isLetter_of_isNumeral numeral
  have lower : c ≠ 'e' := by
    rintro rfl
    exact absurd noLetter (by decide)
  have upper : c ≠ 'E' := by
    rintro rfl
    exact absurd noLetter (by decide)
  simp only [exponentOf?]
  split
  · simp [lower, upper]
  · rfl

section Exponent

variable (negative : Bool) {whole fraction rest : List Char} {power : Int}
  (exponent : exponentOf? rest = some power) (ends : ∀ c ∈ rest.head?, isDecimal c = false)

include exponent ends

/-- Decimal digits before an exponent are the number that they denote, shifted by it. -/
theorem ofNumeral?_whole_exponent (nonempty : whole ≠ []) (inside : ∀ c ∈ whole, isDecimal c)
    (noPoint : '.' ∉ rest.head?) :
    ofNumeral? negative (whole ++ rest) =
      some (ofDecimal negative (ofDigits (digitValues whole)) power) := by
  have split := splitPoint_whole inside ends noPoint
  have digits := mt (digitValues_eq_nil inside).mp nonempty
  simp [ofNumeral?, split, digits, exponent]

/-- So are digits with a point among them. -/
theorem ofNumeral?_point_exponent (nonempty : whole ++ fraction ≠ [])
    (wholeInside : ∀ c ∈ whole, isDecimal c) (fractionInside : ∀ c ∈ fraction, isDecimal c) :
    ofNumeral? negative (whole ++ '.' :: (fraction ++ rest)) =
      some (ofDecimal negative (ofDigits (digitValues (whole ++ fraction)))
        (power - fraction.length)) := by
  have split := splitPoint_point wholeInside fractionInside ends
  have digits : digitValues (whole ++ fraction) ≠ [] := by
    rw [Ne, digitValues_eq_nil]
    · exact nonempty
    · simpa [or_imp, forall_and] using ⟨wholeInside, fractionInside⟩
  have both : digitValues (whole ++ fraction) = digitValues whole ++ digitValues fraction :=
    List.filterMap_append
  rw [both] at digits ⊢
  simp only [ofNumeral?, split, exponent, Option.map_some, length_digitValues fractionInside]
  rw [if_neg (by simpa using digits)]

end Exponent

theorem ofNumeral?_whole (negative : Bool) {whole : List Char} (nonempty : whole ≠ [])
    (inside : ∀ c ∈ whole, isDecimal c) :
    ofNumeral? negative whole = some (ofDecimal negative (ofDigits (digitValues whole)) 0) := by
  have exponent : exponentOf? [] = some 0 := rfl
  have read := ofNumeral?_whole_exponent negative exponent (by simp) nonempty inside (by simp)
  rwa [List.append_nil] at read

theorem ofNumeral?_point (negative : Bool) {whole fraction : List Char}
    (nonempty : whole ++ fraction ≠ []) (wholeInside : ∀ c ∈ whole, isDecimal c)
    (fractionInside : ∀ c ∈ fraction, isDecimal c) :
    ofNumeral? negative (whole ++ '.' :: fraction) =
      some (ofDecimal negative (ofDigits (digitValues (whole ++ fraction)))
        (-fraction.length)) := by
  have exponent : exponentOf? [] = some 0 := rfl
  have read := ofNumeral?_point_exponent negative exponent (by simp) nonempty wholeInside
    fractionInside
  rwa [List.append_nil, Int.zero_sub] at read

theorem ofNumeral?_stuck (negative : Bool) {text rest : List Char} {c : Char}
    {whole fraction : List Nat} (split : splitPoint text = (whole, fraction, c :: rest))
    (numeral : isNumeral c) : ofNumeral? negative text = none := by
  simp [ofNumeral?, split, exponentOf?_numeral numeral]

variable {run : List Char}

/-- A numeral at the beginning is no sign and begins no name. -/
theorem ofText?_numeral {c : Char} (numeral : isNumeral c) (rest : List Char) :
    ofText? (c :: rest) = ofNumeral? false (c :: rest) := by
  have noLetter := isLetter_of_isNumeral numeral
  have noSign : takeSign (c :: rest) = (false, c :: rest) := by
    have plus : c ≠ '+' := by
      rintro rfl
      exact absurd numeral (by decide)
    have minus : c ≠ '-' := by
      rintro rfl
      exact absurd numeral (by decide)
    simp [takeSign, plus, minus]
  have noName (d : Char) (letter : isLetter d) : c.toLower ≠ d := by
    intro lower
    simp [isLetter_of_toLower lower letter] at noLetter
  have noInfinity : c.toLower ≠ 'i' := noName 'i' (by decide)
  have noNan : c.toLower ≠ 'n' := noName 'n' (by decide)
  simp [ofText?, noSign, noInfinity, noNan]

theorem ofText?_numerals (inside : ∀ c ∈ run, isNumeral c) :
    ofText? run = ofNumeral? false run := by
  cases run with
  | nil => rfl
  | cons c run => exact ofText?_numeral (inside c (by simp)) run

theorem not_malformed (others : ∀ c ∈ run, c = '.' ∨ isDecimal c) (points : run.count '.' ≤ 1)
    {d : Char} (mem : d ∈ run) (digit : isDecimal d) : ¬Malformed run := by
  rintro (⟨c, mem', numeric, noDigit⟩ | many | noDigits)
  · rcases others c mem' with rfl | isDigit
    · exact absurd numeric (by decide)
    · simp [isDigit] at noDigit
  · omega
  · simp [noDigits d mem] at digit

theorem malformed_of_other {c : Char} (mem : c ∈ run) (numeral : isNumeral c) (noPoint : c ≠ '.')
    (noDigit : isDecimal c = false) : Malformed run := by
  have numeric : isNumeric c := by
    simpa [isNumeral, noPoint, isLetter_of_isNumeral numeral] using numeral
  exact .inl ⟨c, mem, numeric, noDigit⟩

theorem count_point {digits : List Char} (inside : ∀ c ∈ digits, isDecimal c) :
    digits.count '.' = 0 := by
  apply List.count_eq_zero.mpr
  intro mem
  have := inside '.' mem
  rw [isDecimal_point] at this
  cases this

theorem not_malformed_whole (nonempty : run ≠ []) (inside : ∀ c ∈ run, isDecimal c) :
    ¬Malformed run := by
  obtain ⟨d, digits, rfl⟩ := List.exists_cons_of_ne_nil nonempty
  refine not_malformed (fun c mem => .inr (inside c mem)) ?_ List.mem_cons_self
    (inside d List.mem_cons_self)
  rw [count_point inside]
  exact Nat.zero_le 1

section Point

variable {whole fraction rest : List Char} (wholeInside : ∀ c ∈ whole, isDecimal c)

include wholeInside

theorem not_malformed_point (nonempty : whole ++ fraction ≠ [])
    (fractionInside : ∀ c ∈ fraction, isDecimal c) : ¬Malformed (whole ++ '.' :: fraction) := by
  obtain ⟨d, mem⟩ := List.exists_mem_of_ne_nil _ nonempty
  rw [List.mem_append] at mem
  refine not_malformed (d := d) ?_ ?_ ?_ (mem.elim (wholeInside d) (fractionInside d))
  · intro c mem'
    rcases List.mem_append.mp mem' with mem' | mem'
    · exact .inr (wholeInside c mem')
    · rcases List.mem_cons.mp mem' with rfl | mem'
      · exact .inl rfl
      · exact .inr (fractionInside c mem')
  · simp [count_point wholeInside, count_point fractionInside]
  · rcases mem with mem | mem <;> simp [mem]

/-- Behind a point only digits are allowed, and there must be one on some side of it. -/
theorem ofNumeral?_point_eq_none_iff (inside : ∀ c ∈ rest, isNumeral c) :
    ofNumeral? false (whole ++ '.' :: rest) = none ↔ Malformed (whole ++ '.' :: rest) := by
  obtain ⟨fraction, rest, rfl, fractionInside, ends⟩ := exists_span isDecimal rest
  cases rest with
  | nil =>
    rw [List.append_nil]
    by_cases empty : whole ++ fraction = []
    · obtain ⟨rfl, rfl⟩ := List.append_eq_nil_iff.mp empty
      exact iff_of_true rfl (.inr (.inr (by simp [isDecimal_point])))
    · rw [ofNumeral?_point false empty wholeInside fractionInside]
      exact iff_of_false (by simp) (not_malformed_point wholeInside empty fractionInside)
  | cons d rest =>
    have split := splitPoint_point wholeInside fractionInside ends
    refine iff_of_true (ofNumeral?_stuck false split (inside d (by simp))) ?_
    by_cases point : d = '.'
    · subst point
      refine .inr (.inl ?_)
      simp [List.count_append]
      omega
    · exact malformed_of_other (by simp) (inside d (by simp)) point (ends d rfl)

end Point

theorem ofText?_eq_none_iff (nonempty : run ≠ []) (inside : ∀ c ∈ run, isNumeral c) :
    ofText? run = none ↔ Malformed run := by
  rw [ofText?_numerals inside]
  obtain ⟨whole, rest, rfl, wholeInside, ends⟩ := exists_span isDecimal run
  cases rest with
  | nil =>
    rw [List.append_nil] at nonempty ⊢
    rw [ofNumeral?_whole false nonempty wholeInside]
    exact iff_of_false (by simp) (not_malformed_whole nonempty wholeInside)
  | cons c rest =>
    by_cases point : c = '.'
    · subst point
      exact ofNumeral?_point_eq_none_iff wholeInside fun d mem => inside d (by simp [mem])
    · have split := splitPoint_whole wholeInside ends (by simp [point])
      have numeral := inside c (by simp)
      exact iff_of_true (ofNumeral?_stuck false split numeral)
        (malformed_of_other (by simp) numeral point (ends c rfl))

end Number

end Formula
