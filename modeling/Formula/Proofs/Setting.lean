import Formula.Journal
import Formula.Proofs.Number.Decimal

/-!
The texts that a setting for the limit can have. A spelling of a whole number has a sign, padding
that begins with a zero, grouped digits and zeros behind a point. Main statement: the spellings of
the numbers from 1 on with at most 4300 digits are the settings that are taken, and every other one
but the empty text is warned of.
-/

namespace Formula

open Text

namespace Text

variable {drop : Char → Bool} {core left right : List Char}

/-- Nothing is trimmed off a text whose ends stay, and all of what surrounds it is. -/
theorem trim_append (inLeft : ∀ c ∈ left, drop c) (inRight : ∀ c ∈ right, drop c)
    (first : ∀ c ∈ core.head?, drop c = false) (last : ∀ c ∈ core.getLast?, drop c = false) :
    trim drop (left ++ core ++ right) = core := by
  have stays {part : List Char} (ends : ∀ c ∈ part.head?, drop c = false) :
      part.dropWhile drop = part := by
    cases part with
    | nil => rfl
    | cons c part => simp [ends c rfl]
  cases core with
  | nil => simp [trim, List.dropWhile_append_of_pos inLeft, List.dropWhile_eq_nil_iff.mpr inRight]
  | cons c core =>
    have front : (left ++ (c :: core) ++ right).dropWhile drop = (c :: core) ++ right := by
      rw [List.append_assoc, List.dropWhile_append_of_pos inLeft]
      exact stays (by simpa using first)
    have back : (right.reverse ++ (c :: core).reverse).dropWhile drop = (c :: core).reverse := by
      rw [List.dropWhile_append_of_pos (by simpa using inRight)]
      apply stays
      rwa [List.head?_reverse]
    rw [trim, front, List.reverse_append, back, List.reverse_reverse]

theorem exists_trim (drop : Char → Bool) (text : List Char) :
    ∃ left right, text = left ++ trim drop text ++ right ∧ (∀ c ∈ left, drop c) ∧
      (∀ c ∈ right, drop c) ∧ (∀ c ∈ (trim drop text).head?, drop c = false) ∧
        ∀ c ∈ (trim drop text).getLast?, drop c = false := by
  obtain ⟨left, rest, rfl, inLeft, first⟩ := exists_span drop text
  obtain ⟨right, core, split, inRight, last⟩ := exists_span drop rest.reverse
  have whole : rest = core.reverse ++ right.reverse := by
    rw [← List.reverse_append, ← split, List.reverse_reverse]
  subst whole
  have first' : ∀ c ∈ core.reverse.head?, drop c = false := by
    intro c mem
    apply first c
    simp_all
  have last' : ∀ c ∈ core.reverse.getLast?, drop c = false := by
    rwa [List.getLast?_reverse]
  have inRight' : ∀ c ∈ right.reverse, drop c := by simpa using inRight
  have same := trim_append inLeft inRight' first' last'
  rw [← List.append_assoc, same]
  exact ⟨left, right.reverse, rfl, inLeft, inRight', first', last'⟩

end Text

namespace Limit

/-- Digits with single underscores between some of them, and the digits alone. -/
inductive Grouped : List Char → List Char → Prop
  | last {c : Char} (digit : c.isDigit) : Grouped [c] [c]
  | next {c : Char} {text digits : List Char} (digit : c.isDigit) (rest : Grouped text digits) :
    Grouped (c :: text) (c :: digits)
  | apart {c : Char} {text digits : List Char} (digit : c.isDigit) (rest : Grouped text digits) :
    Grouped (c :: '_' :: text) (c :: digits)

namespace Grouped

variable {text digits : List Char}

theorem exists_cons (grouped : Grouped text digits) : ∃ c rest, text = c :: rest ∧ c.isDigit := by
  cases grouped with
  | last digit => exact ⟨_, _, rfl, digit⟩
  | next digit rest => exact ⟨_, _, rfl, digit⟩
  | apart digit rest => exact ⟨_, _, rfl, digit⟩

theorem not_underscore : ¬Grouped ('_' :: text) digits := by
  intro grouped
  obtain ⟨c, rest, split, digit⟩ := grouped.exists_cons
  obtain ⟨rfl, _⟩ := List.cons.inj split
  exact absurd digit (by decide)

theorem char (grouped : Grouped text digits) {c : Char} (mem : c ∈ text) : c.isDigit ∨ c = '_' := by
  induction grouped with
  | last digit =>
    obtain rfl := List.mem_singleton.mp mem
    exact .inl digit
  | next digit rest ih =>
    rcases List.mem_cons.mp mem with rfl | later
    · exact .inl digit
    · exact ih later
  | apart digit rest ih =>
    simp only [List.mem_cons] at mem
    rcases mem with rfl | rfl | later
    · exact .inl digit
    · exact .inr rfl
    · exact ih later

theorem digits_ascii (grouped : Grouped text digits) : ∀ c ∈ digits, c.isDigit := by
  induction grouped with
  | last digit => simpa using digit
  | next digit rest ih => simpa using ⟨digit, ih⟩
  | apart digit rest ih => simpa using ⟨digit, ih⟩

end Grouped

theorem asciiDigitValue?_eq_some {c : Char} {value : Nat} :
    asciiDigitValue? c = some value ↔ c.isDigit ∧ digitValue? c = some value := by
  unfold asciiDigitValue?
  split
  · rename_i digit
    simp [digit, digitValue?_of_isDigit digit]
  · rename_i noDigit
    simp [noDigit]

theorem groupedDigits?_eq_some {text : List Char} {values : List Nat} :
    groupedDigits? asciiDigitValue? text = some values ↔
      ∃ digits, Grouped text digits ∧ values = Number.digitValues digits := by
  constructor
  · intro read
    fun_induction groupedDigits? asciiDigitValue? text generalizing values with
    | case1 => cases read
    | case2 c =>
      obtain ⟨value, here, rfl⟩ := Option.map_eq_some_iff.mp read
      obtain ⟨digit, same⟩ := asciiDigitValue?_eq_some.mp here
      exact ⟨[c], .last digit, by simp [Number.digitValues, same]⟩
    | case3 c rest ih =>
      simp only [Option.bind_eq_bind, Option.bind_eq_some_iff, Option.pure_def,
        Option.some.injEq] at read
      obtain ⟨value, here, values, later, rfl⟩ := read
      obtain ⟨digit, same⟩ := asciiDigitValue?_eq_some.mp here
      obtain ⟨digits, grouped, rfl⟩ := ih later
      exact ⟨c :: digits, .apart digit grouped, by simp [Number.digitValues, same]⟩
    | case4 c rest _ _ ih =>
      simp only [Option.bind_eq_bind, Option.bind_eq_some_iff, Option.pure_def,
        Option.some.injEq] at read
      obtain ⟨value, here, values, later, rfl⟩ := read
      obtain ⟨digit, same⟩ := asciiDigitValue?_eq_some.mp here
      obtain ⟨digits, grouped, rfl⟩ := ih later
      exact ⟨c :: digits, .next digit grouped, by simp [Number.digitValues, same]⟩
  · rintro ⟨digits, grouped, rfl⟩
    induction grouped with
    | @last c digit =>
      have here : asciiDigitValue? c = some (c.toNat - 48) := if_pos digit
      simp [groupedDigits?, here, Number.digitValues, digitValue?_of_isDigit digit]
    | @apart c text digits digit rest ih =>
      have here : asciiDigitValue? c = some (c.toNat - 48) := if_pos digit
      simp [groupedDigits?, here, ih, Number.digitValues, digitValue?_of_isDigit digit]
    | @next c text digits digit rest ih =>
      have here : asciiDigitValue? c = some (c.toNat - 48) := if_pos digit
      obtain ⟨d, later, rfl, digit'⟩ := rest.exists_cons
      have noBar : d ≠ '_' := by
        rintro rfl
        exact absurd digit' (by decide)
      rw [groupedDigits?]
      · simp [here, ih, Number.digitValues, digitValue?_of_isDigit digit]
      · simp
      · simp [noBar]

theorem natural?_eq_some {text : List Char} {n : Int} : natural? text = some n ↔
    ∃ digits, Grouped text digits ∧ n = Nat.ofDigitChars 10 digits 0 := by
  simp only [natural?, Option.map_eq_some_iff, groupedDigits?_eq_some]
  constructor
  · rintro ⟨values, ⟨digits, grouped, rfl⟩, rfl⟩
    exact ⟨digits, grouped, by rw [Number.ofDigits_digitValues grouped.digits_ascii]⟩
  · rintro ⟨digits, grouped, rfl⟩
    exact ⟨_, ⟨digits, grouped, rfl⟩, by rw [Number.ofDigits_digitValues grouped.digits_ascii]⟩

/-- Nothing, or a zero with zeros and underscores behind it. -/
def Padding (text : List Char) : Prop :=
  text = [] ∨ ∃ rest, text = '0' :: rest ∧ ∀ c ∈ rest, c = '0' ∨ c = '_'

theorem Padding.char {text : List Char} (padding : Padding text) {c : Char} (mem : c ∈ text) :
    c = '0' ∨ c = '_' := by
  obtain rfl | ⟨rest, rfl, more⟩ := padding
  · cases mem
  · rcases List.mem_cons.mp mem with rfl | later
    · exact .inl rfl
    · exact more c later

theorem isPadding_of_digit {c : Char} (digit : c.isDigit) (nonzero : c ≠ '0') :
    isPadding c = false := by
  have noBar : c ≠ '_' := by
    rintro rfl
    exact absurd digit (by decide)
  simp [isPadding, nonzero, noBar]

/-- Without the zeros in front, and the underscores among them, the number is the same. -/
theorem Grouped.exists_dropWhile {text digits : List Char} (grouped : Grouped text digits)
    (positive : 0 < Nat.ofDigitChars 10 digits 0) :
    ∃ digits', Grouped (text.dropWhile isPadding) digits' ∧
      Nat.ofDigitChars 10 digits' 0 = Nat.ofDigitChars 10 digits 0 := by
  have stays {c : Char} {rest digits : List Char} (here : Grouped (c :: rest) digits)
      (digit : c.isDigit) (nonzero : c ≠ '0') : ∃ digits',
        Grouped ((c :: rest).dropWhile isPadding) digits' ∧
          Nat.ofDigitChars 10 digits' 0 = Nat.ofDigitChars 10 digits 0 := by
    rw [List.dropWhile_cons_of_neg (by simp [isPadding_of_digit digit nonzero])]
    exact ⟨digits, here, rfl⟩
  induction grouped with
  | @last c digit =>
    by_cases zero : c = '0'
    · subst zero
      cases positive
    · exact stays (.last digit) digit zero
  | @next c text digits digit rest ih =>
    by_cases zero : c = '0'
    · subst zero
      exact ih (by simpa [Nat.ofDigitChars_cons] using positive)
    · exact stays (.next digit rest) digit zero
  | @apart c text digits digit rest ih =>
    by_cases zero : c = '0'
    · subst zero
      exact ih (by simpa [Nat.ofDigitChars_cons] using positive)
    · exact stays (.apart digit rest) digit zero

theorem natural?_nonneg {text : List Char} {n : Int} (read : natural? text = some n) : 0 ≤ n := by
  obtain ⟨digits, _, rfl⟩ := natural?_eq_some.mp read
  exact Int.natCast_nonneg _

theorem negative?_nonpos {text : List Char} {n : Int} (read : negative? text = some n) :
    n ≤ 0 := by
  unfold negative? at read
  generalize (if text.head? = some '_' then text.tail else text) = digits at read
  dsimp only at read
  split at read
  · cases read
  · obtain ⟨m, natural, rfl⟩ := Option.map_eq_some_iff.mp read
    have := natural?_nonneg natural
    omega

/-- Behind a minus sign there is no second one. -/
theorem unsigned?_signed_nonneg {text : List Char} {n : Int} (read : unsigned? true text = some n) :
    0 ≤ n := by
  unfold unsigned? at read
  split at read
  · split at read
    · split at read <;> cases read
      exact Int.le_refl 0
    · simp at read
    · exact natural?_nonneg read
  · exact natural?_nonneg read

/-- The texts of the numbers from 1 on, without sign. -/
theorem unsigned?_eq_some {text : List Char} {n : Int} (positive : 1 ≤ n) :
    unsigned? false text = some n ↔ ∃ padding grouped digits, text = padding ++ grouped ∧
      Padding padding ∧ Grouped grouped digits ∧ n = Nat.ofDigitChars 10 digits 0 := by
  constructor
  · intro read
    unfold unsigned? at read
    split at read
    · rename_i zero
      obtain ⟨rest, rfl⟩ : ∃ rest, text = '0' :: rest := by
        cases text with
        | nil => cases zero
        | cons c rest => exact ⟨rest, by rw [List.head?_cons] at zero; rw [Option.some.inj zero]⟩
      have padded : Padding (('0' :: rest).takeWhile isPadding) := by
        refine .inr ⟨rest.takeWhile isPadding, rfl, fun c mem => ?_⟩
        simpa [isPadding] using List.mem_takeWhile_imp mem
      split at read
      · split at read <;> cases read
        cases positive
      · have := negative?_nonpos (by simpa using read)
        omega
      · obtain ⟨digits, grouped, value⟩ := natural?_eq_some.mp read
        exact ⟨_, _, digits, List.takeWhile_append_dropWhile.symm, padded, grouped, value⟩
    · obtain ⟨digits, grouped, value⟩ := natural?_eq_some.mp read
      exact ⟨[], text, digits, rfl, .inl rfl, grouped, value⟩
  · rintro ⟨padding, grouped, digits, rfl, padded, isGrouped, rfl⟩
    have front : ∀ c ∈ padding, isPadding c := by
      intro c mem
      rcases padded.char mem with rfl | rfl <;> rfl
    obtain ⟨digits', more, same⟩ := isGrouped.exists_dropWhile (by omega)
    unfold unsigned?
    split
    · rw [List.dropWhile_append_of_pos front]
      obtain ⟨c, rest, split, digit⟩ := more.exists_cons
      rw [split] at more ⊢
      have noSign : c ≠ '-' := by
        rintro rfl
        exact absurd digit (by decide)
      have read := natural?_eq_some.mpr ⟨digits', more, rfl⟩
      rw [same] at read
      split
      · rename_i none
        cases none
      · rename_i sign
        exact absurd (List.cons.inj sign).1 noSign
      · exact read
    · rename_i noZero
      obtain rfl | ⟨rest, rfl, _⟩ := padded
      · exact natural?_eq_some.mpr ⟨digits, isGrouped, rfl⟩
      · exact absurd rfl noZero

/-- How a whole number is spelled: a sign, padding, grouped digits, and zeros behind a point. -/
structure Spelling where
  sign : List Char
  isSign : sign = [] ∨ sign = ['+'] ∨ sign = ['-']
  padding : List Char
  isPadding : Padding padding
  grouped : List Char
  digits : List Char
  isGrouped : Grouped grouped digits
  fraction : List Char
  isFraction : fraction = [] ∨ ∃ zeros, fraction = '.' :: zeros ∧ zeros ≠ [] ∧ ∀ c ∈ zeros, c = '0'

namespace Spelling

/-- The text in front of the point. -/
def whole (s : Spelling) : List Char := s.sign ++ (s.padding ++ s.grouped)

def text (s : Spelling) : List Char := s.whole ++ s.fraction

def value (s : Spelling) : Int :=
  if s.sign = ['-'] then -(Nat.ofDigitChars 10 s.digits 0 : Int)
  else Nat.ofDigitChars 10 s.digits 0

variable {s : Spelling}

theorem char_whole {c : Char} (mem : c ∈ s.whole) : c.isDigit ∨ c ∈ ['+', '-', '_'] := by
  simp only [whole, List.mem_append] at mem
  rcases mem with sign | padding | grouped
  · obtain same | same | same := s.isSign <;> rw [same] at sign <;> simp_all
  · rcases s.isPadding.char padding with rfl | rfl <;> decide
  · rcases s.isGrouped.char grouped with digit | rfl
    · exact .inl digit
    · decide

theorem not_negative (positive : 1 ≤ s.value) : s.sign ≠ ['-'] := by
  intro negative
  simp only [value, if_pos negative] at positive
  omega

end Spelling

theorem isZeroFraction_iff {text : List Char} : isZeroFraction text ↔
    ∃ zeros, text = '.' :: zeros ∧ zeros ≠ [] ∧ ∀ c ∈ zeros, c = '0' := by
  unfold isZeroFraction
  split
  · simp
  · rename_i noPoint
    simp only [Bool.false_eq_true, false_iff]
    rintro ⟨zeros, rfl, _⟩
    exact noPoint zeros rfl

namespace Spelling

variable {s : Spelling}

theorem takeWhile_text : s.text.takeWhile (· != '.') = s.whole := by
  have inside : ∀ c ∈ s.whole, (c != '.') = true := by
    intro c mem
    rcases char_whole mem with digit | sign
    · rw [bne_iff_ne]
      rintro rfl
      exact absurd digit (by decide)
    · simp only [List.mem_cons, List.not_mem_nil, or_false] at sign
      rcases sign with rfl | rfl | rfl <;> rfl
  rw [text, List.takeWhile_append_of_pos inside]
  obtain none | ⟨zeros, point, _⟩ := s.isFraction
  · simp [none]
  · simp [point]

theorem dropWhile_text : s.text.dropWhile (· != '.') = s.fraction := by
  have whole := List.takeWhile_append_dropWhile (p := (· != '.')) (l := s.text)
  rw [takeWhile_text] at whole
  exact List.append_cancel_left whole

/-- A digit begins what stands behind the sign. -/
theorem exists_cons (s : Spelling) : ∃ c rest, s.padding ++ s.grouped = c :: rest ∧ c.isDigit := by
  obtain none | ⟨rest, zero, _⟩ := s.isPadding
  · obtain ⟨c, rest, split, digit⟩ := s.isGrouped.exists_cons
    exact ⟨c, rest, by rw [none, List.nil_append, split], digit⟩
  · exact ⟨'0', rest ++ s.grouped, by rw [zero, List.cons_append], by decide⟩

theorem ne_cons (s : Spelling) {c : Char} {rest : List Char} (noDigit : c.isDigit = false) :
    s.padding ++ s.grouped ≠ c :: rest := by
  intro same
  obtain ⟨d, _, split, digit⟩ := s.exists_cons
  rw [same] at split
  obtain ⟨rfl, _⟩ := List.cons.inj split
  rw [noDigit] at digit
  cases digit

end Spelling

/-- The texts of the numbers from 1 on are their spellings. -/
theorem ofSetting?_eq_some {text : List Char} {n : Int} (positive : 1 ≤ n) :
    ofSetting? text = some n ↔ ∃ s : Spelling, s.text = text ∧ s.value = n := by
  constructor
  · intro read
    unfold ofSetting? at read
    dsimp only at read
    split at read
    · rename_i ends
      have isFraction : text.dropWhile (· != '.') = [] ∨ ∃ zeros,
          text.dropWhile (· != '.') = '.' :: zeros ∧ zeros ≠ [] ∧ ∀ c ∈ zeros, c = '0' := by
        simpa only [Bool.or_eq_true, List.isEmpty_iff, isZeroFraction_iff] using ends
      have whole := List.takeWhile_append_dropWhile (p := (· != '.')) (l := text)
      split at read
      · rename_i digits plus
        obtain ⟨padding, grouped, digits, rfl, padded, isGrouped, rfl⟩ :=
          (unsigned?_eq_some positive).mp read
        rw [plus] at whole
        exact ⟨⟨['+'], .inr (.inl rfl), padding, padded, grouped, digits, isGrouped, _, isFraction⟩,
          whole, if_neg (by simp)⟩
      · obtain ⟨m, behind, rfl⟩ := Option.map_eq_some_iff.mp read
        have := unsigned?_signed_nonneg behind
        omega
      · obtain ⟨padding, grouped, digits, split, padded, isGrouped, rfl⟩ :=
          (unsigned?_eq_some positive).mp read
        rw [split] at whole
        exact ⟨⟨[], .inl rfl, padding, padded, grouped, digits, isGrouped, _, isFraction⟩,
          whole, if_neg (by simp)⟩
    · cases read
  · rintro ⟨s, rfl, rfl⟩
    have unsigned : unsigned? false (s.padding ++ s.grouped) = some s.value :=
      (unsigned?_eq_some positive).mpr ⟨_, _, s.digits, rfl, s.isPadding, s.isGrouped,
        if_neg (Spelling.not_negative positive)⟩
    have ends : s.fraction.isEmpty || isZeroFraction s.fraction := by
      simpa only [Bool.or_eq_true, List.isEmpty_iff, isZeroFraction_iff] using s.isFraction
    unfold ofSetting?
    dsimp only
    rw [Spelling.dropWhile_text, Spelling.takeWhile_text, if_pos ends, Spelling.whole]
    obtain none | plus | minus := s.isSign
    · rw [none, List.nil_append]
      split
      · rename_i sign
        exact absurd sign (s.ne_cons (by decide))
      · rename_i sign
        exact absurd sign (s.ne_cons (by decide))
      · exact unsigned
    · rw [plus]
      exact unsigned
    · exact absurd minus (Spelling.not_negative positive)

/-- What may be offered as the text of a limit: the spellings of the numbers from 1 on that have at
most 4300 digits. -/
theorem ofValue_text {raw : String} {n : Int} : ofValue (.text raw) = .ok n ↔
    ∃ s : Spelling, s.text = trim isWhiteSpace raw.toList ∧ s.value = n ∧ 1 ≤ n ∧
      n < 10 ^ digitLimit := by
  have below {k : Nat} (positive : 1 ≤ n) : n.natAbs < Nat.pow 10 k ↔ n < 10 ^ k := by
    obtain ⟨m, rfl⟩ := Int.eq_ofNat_of_zero_le (show 0 ≤ n by omega)
    rw [Int.natAbs_natCast]
    exact_mod_cast Iff.rfl
  have checked {m : Int} : checkBelow (Nat.pow 10 digitLimit) m = .ok n ↔
      m = n ∧ 1 ≤ n ∧ n < 10 ^ digitLimit := by
    unfold checkBelow check
    constructor
    · intro passed
      split at passed
      · rename_i small
        split at passed <;> cases passed
        rename_i positive
        exact ⟨rfl, positive, (below positive).mp small⟩
      · cases passed
    · rintro ⟨rfl, positive, small⟩
      rw [if_pos ((below positive).mpr small), if_pos positive]
  constructor
  · intro passed
    simp only [ofValue] at passed
    split at passed
    · rename_i m read
      obtain ⟨rfl, positive, small⟩ := checked.mp passed
      obtain ⟨s, same, value⟩ := (ofSetting?_eq_some positive).mp read
      exact ⟨s, same, value, positive, small⟩
    · cases passed
  · rintro ⟨s, same, value, positive, small⟩
    have read := (ofSetting?_eq_some positive).mpr ⟨s, same, value⟩
    simp only [ofValue, read]
    exact checked.mpr ⟨rfl, positive, small⟩

/-- The blanks around a text do not count. -/
theorem stripped_eq {setting : Option String} {core left right : List Char}
    (whole : (setting.getD "").toList = left ++ core ++ right) (inLeft : ∀ c ∈ left, isBlank c)
    (inRight : ∀ c ∈ right, isBlank c) (inCore : ∀ c ∈ core, isBlank c = false) :
    stripped setting = String.ofList core := by
  rw [stripped, whole, trim_append inLeft inRight]
  · exact fun c mem => inCore c (List.mem_of_mem_head? mem)
  · exact fun c mem => inCore c (List.mem_of_mem_getLast? mem)

theorem Spelling.isBlank_text {s : Spelling} {c : Char} (mem : c ∈ s.text) :
    isBlank c = false := by
  have of_digit {c : Char} (digit : c.isDigit) : isBlank c = false := by
    have := isNumeral_of_isDigit digit
    grind [isNumeral_of_isBlank]
  rcases List.mem_append.mp mem with whole | fraction
  · rcases char_whole whole with digit | sign
    · exact of_digit digit
    · simp only [List.mem_cons, List.not_mem_nil, or_false] at sign
      rcases sign with rfl | rfl | rfl <;> decide
  · obtain none | ⟨zeros, point, _, isZero⟩ := s.isFraction
    · rw [none] at fraction
      cases fraction
    · rw [point] at fraction
      rcases List.mem_cons.mp fraction with rfl | later
      · decide
      · rw [isZero c later]
        decide

/-- The text of a setting without the blanks around it. -/
theorem exists_stripped (setting : Option String) :
    ∃ left right, (setting.getD "").toList = left ++ (stripped setting).toList ++ right ∧
      (∀ c ∈ left, isBlank c) ∧ (∀ c ∈ right, isBlank c) ∧
        (∀ c ∈ (stripped setting).toList.head?, isBlank c = false) ∧
          ∀ c ∈ (stripped setting).toList.getLast?, isBlank c = false := by
  rw [stripped, String.toList_ofList]
  exact exists_trim isBlank _

theorem trim_stripped (setting : Option String) :
    trim isWhiteSpace (stripped setting).toList = (stripped setting).toList := by
  obtain ⟨_, _, _, _, _, first, last⟩ := exists_stripped setting
  have stays {c : Char} (solid : isBlank c = false) : isWhiteSpace c = false := by
    cases white : isWhiteSpace c with
    | false => rfl
    | true => rw [isBlank_of_isWhiteSpace white] at solid; cases solid
  have same : trim isWhiteSpace ([] ++ (stripped setting).toList ++ []) =
      (stripped setting).toList := by
    apply trim_append (by simp) (by simp)
    · intro c mem
      exact stays (first c mem)
    · intro c mem
      exact stays (last c mem)
  simpa using same

/-- What becomes of a setting, by its text without the blanks around it. -/
theorem ofEnvironment_eq_ok {setting : Option String} (nonempty : stripped setting ≠ "") {n : Int} :
    ofEnvironment setting = .ok n ↔ ∃ s : Spelling, s.text = (stripped setting).toList ∧
      s.value = n ∧ 1 ≤ n ∧ n < 10 ^ digitLimit := by
  rw [← trim_stripped, ← ofValue_text, ofEnvironment]
  have noText : (stripped setting).isEmpty = false := by simpa using nonempty
  simp only [noText, Bool.false_eq_true, if_false]
  split
  · rename_i read
    simp [read]
  · rename_i refused
    simp [refused]

theorem ofEnvironment_empty {setting : Option String} (empty : stripped setting = "") :
    ofEnvironment setting = .ok standard := by
  simp [ofEnvironment, empty]

theorem ofEnvironment_other {setting : Option String} (nonempty : stripped setting ≠ "")
    (other : ¬∃ s : Spelling, s.text = (stripped setting).toList ∧ 1 ≤ s.value ∧
      s.value < 10 ^ digitLimit) :
    ofEnvironment setting = .error (stripped setting) := by
  have refused (n : Int) : ofEnvironment setting ≠ .ok n := by
    intro passed
    obtain ⟨s, same, rfl, bounds⟩ := (ofEnvironment_eq_ok nonempty).mp passed
    exact other ⟨s, same, bounds⟩
  simp only [ofEnvironment] at refused ⊢
  grind

theorem ofEnvironment_spelling {setting : Option String} {s : Spelling}
    (same : s.text = (stripped setting).toList) (positive : 1 ≤ s.value)
    (small : s.value < 10 ^ digitLimit) : ofEnvironment setting = .ok s.value := by
  have nonempty : stripped setting ≠ "" := by
    obtain ⟨c, rest, split, _⟩ := s.exists_cons
    intro empty
    simp [empty, Spelling.text, Spelling.whole, split] at same
  exact (ofEnvironment_eq_ok nonempty).mpr ⟨s, same, rfl, positive, small⟩

theorem load_of_ok {setting : Option String} {n : Int} (taken : ofEnvironment setting = .ok n) :
    load setting = n ∧ Journal.ofSetting setting = [] := by
  simp [load, Journal.ofSetting, taken]

theorem load_of_error {setting : Option String} {raw : String}
    (refused : ofEnvironment setting = .error raw) :
    load setting = standard ∧ Journal.ofSetting setting = [Journal.refusedLimit raw] := by
  simp [load, Journal.ofSetting, refused]

theorem refusedLimit_eq (raw : String) : Journal.refusedLimit raw = ⟨.settings, .warning,
    "Invalid PEMDAS_MAX_DEPTH value '" ++ raw ++ "'. Using default 200."⟩ := by
  have front : "Invalid " ++ Journal.limitVariable ++ " value '" =
      "Invalid PEMDAS_MAX_DEPTH value '" := by decide +kernel
  have back : "'. Using default " ++ (toString standard ++ ".") = "'. Using default 200." := by
    decide +kernel
  rw [Journal.refusedLimit, front, ← back]
  simp only [String.append_assoc]

theorem stripped_spelling {setting : Option String} {s : Spelling} {left right : List Char}
    (whole : (setting.getD "").toList = left ++ s.text ++ right) (inLeft : ∀ c ∈ left, isBlank c)
    (inRight : ∀ c ∈ right, isBlank c) : s.text = (stripped setting).toList := by
  rw [stripped_eq whole inLeft inRight fun _ => Spelling.isBlank_text, String.toList_ofList]

theorem load_of_spelling {setting : Option String} {s : Spelling} {left right : List Char}
    (whole : (setting.getD "").toList = left ++ s.text ++ right) (inLeft : ∀ c ∈ left, isBlank c)
    (inRight : ∀ c ∈ right, isBlank c) (positive : 1 ≤ s.value) (small : s.value < 10 ^ digitLimit) :
    load setting = s.value ∧ Journal.ofSetting setting = [] :=
  load_of_ok (ofEnvironment_spelling (stripped_spelling whole inLeft inRight) positive small)

/-- A text spells no two numbers from 1 on. -/
theorem Spelling.value_eq {s s' : Spelling} (same : s.text = s'.text) (positive : 1 ≤ s.value)
    (positive' : 1 ≤ s'.value) : s.value = s'.value := by
  have read := (ofSetting?_eq_some positive).mpr ⟨s, same, rfl⟩
  have read' := (ofSetting?_eq_some positive').mpr ⟨s', rfl, rfl⟩
  exact Option.some.inj (read.symm.trans read')

theorem load_of_large {s : Spelling} (large : 10 ^ digitLimit ≤ s.value) :
    load (some (String.ofList s.text)) = standard ∧
      Journal.ofSetting (some (String.ofList s.text)) =
        [Journal.refusedLimit (String.ofList s.text)] := by
  have positive : 1 ≤ s.value := by
    have : (0 : Int) < 10 ^ digitLimit := Int.pow_pos (by decide)
    omega
  have whole : ((some (String.ofList s.text)).getD "").toList = [] ++ s.text ++ [] := by simp
  have same : stripped (some (String.ofList s.text)) = String.ofList s.text :=
    stripped_eq whole (by simp) (by simp) fun _ => Spelling.isBlank_text
  have refused : ofEnvironment (some (String.ofList s.text)) = .error (String.ofList s.text) := by
    rw [ofEnvironment_other, same]
    · obtain ⟨c, rest, split, _⟩ := s.exists_cons
      rw [same]
      simp [Spelling.text, Spelling.whole, split]
    · rintro ⟨s', spelled, positive', small⟩
      rw [same, String.toList_ofList] at spelled
      have := Spelling.value_eq spelled positive' positive
      omega
  exact load_of_error refused

theorem load_pos (setting : Option String) : 1 ≤ load setting := by
  cases found : ofEnvironment setting with
  | error raw =>
    rw [(load_of_error found).1]
    decide
  | ok n =>
    rw [(load_of_ok found).1]
    by_cases empty : stripped setting = ""
    · rw [ofEnvironment_empty empty] at found
      cases found
      decide
    · obtain ⟨_, _, _, positive, _⟩ := (ofEnvironment_eq_ok empty).mp found
      exact positive

/-- The text of a power of 10. -/
theorem grouped_power (k : Nat) : Grouped ('1' :: List.replicate k '0')
    ('1' :: List.replicate k '0') := by
  have zeros (k : Nat) : Grouped (List.replicate (k + 1) '0') (List.replicate (k + 1) '0') := by
    induction k with
    | zero => exact .last (by decide)
    | succ k ih => exact .next (by decide) ih
  cases k with
  | zero => exact .last (by decide)
  | succ k => exact .next (by decide) (zeros k)

theorem ofDigitChars_power (k : Nat) :
    Nat.ofDigitChars 10 ('1' :: List.replicate k '0') 0 = 10 ^ k := by
  have zeros (n : Nat) : Nat.ofDigitChars 10 (List.replicate k '0') n = n * 10 ^ k := by
    induction k generalizing n with
    | zero => simp
    | succ k ih =>
      rw [List.replicate_succ, Nat.ofDigitChars_cons, ih, Nat.pow_succ]
      simp
      ring
  rw [Nat.ofDigitChars_cons, zeros]
  simp

def power (k : Nat) : Spelling where
  sign := []
  isSign := .inl rfl
  padding := []
  isPadding := .inl rfl
  grouped := '1' :: List.replicate k '0'
  digits := '1' :: List.replicate k '0'
  isGrouped := grouped_power k
  fraction := []
  isFraction := .inl rfl

theorem text_power (k : Nat) : (power k).text = '1' :: List.replicate k '0' :=
  List.append_nil _

theorem value_power (k : Nat) : (power k).value = 10 ^ k := by
  have unsigned : (power k).sign ≠ ['-'] := (List.cons_ne_nil _ _).symm
  rw [Spelling.value, if_neg unsigned, power, ofDigitChars_power, Int.natCast_pow]
  rfl

/-- A zero with underscores in front of a 5. -/
def paddedFive : Spelling where
  sign := []
  isSign := .inl rfl
  padding := ['0', '_', '_']
  isPadding := .inr ⟨['_', '_'], rfl, by simp⟩
  grouped := ['5']
  digits := ['5']
  isGrouped := .last (Eq.refl true)
  fraction := []
  isFraction := .inl rfl

end Limit

end Formula
