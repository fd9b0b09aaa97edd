import Mathlib.Data.List.TakeWhile
import Formula.Token.Run

/-!
The classes of characters, each by a condition of its own. Blanks, letters and symbols have no
character in common, so the order in which the classes are tried matters only for the numerals
that are letters too.
-/

namespace Formula

namespace Text

/-- A character that belongs to a number: numeric or a point, and no letter. -/
def isNumeral (c : Char) : Bool := (isNumeric c || c == '.') && !isLetter c

/-- A character that no formula contains. -/
def Illegal (c : Char) : Prop :=
  isBlank c = false ∧ isLetter c = false ∧ isNumeric c = false ∧
    c ∉ ['.', '+', '-', '*', '/', '^', '(', ')']

instance (c : Char) : Decidable (Illegal c) := inferInstanceAs (Decidable (_ ∧ _))

/-- A text begins with all the characters of a class up to the first that is none. -/
theorem exists_span (p : Char → Bool) (text : List Char) :
    ∃ run rest, text = run ++ rest ∧ (∀ c ∈ run, p c) ∧ ∀ c ∈ rest.head?, p c = false := by
  refine ⟨text.takeWhile p, text.dropWhile p, List.takeWhile_append_dropWhile.symm,
    fun c => List.mem_takeWhile_imp, ?_⟩
  intro c mem
  have first := List.head?_dropWhile_not p text
  rw [Option.mem_def.mp mem] at first
  simpa using first

theorem exists_of_inRanges {n : Nat} {ranges : List (Nat × Nat)} (inside : inRanges n ranges) :
    ∃ range ∈ ranges, range.1 ≤ n ∧ n ≤ range.2 := by
  induction ranges with
  | nil => simp [inRanges] at inside
  | cons range rest ih =>
    obtain ⟨low, high⟩ := range
    simp only [inRanges, Bool.and_eq_true, Bool.or_eq_true, decide_eq_true_eq] at inside
    obtain ⟨above, below | later⟩ := inside
    · exact ⟨(low, high), by simp, above, below⟩
    · obtain ⟨range, mem, bounds⟩ := ih later
      exact ⟨range, by simp [mem], bounds⟩

/-- Whether no range of one list meets a range of the other. -/
def apart (ranges others : List (Nat × Nat)) : Bool :=
  ranges.all fun range => others.all fun other => range.2 < other.1 || other.2 < range.1

theorem inRanges_eq_false_of_apart {n : Nat} {ranges others : List (Nat × Nat)}
    (disjoint : apart ranges others) (inside : inRanges n ranges) : inRanges n others = false := by
  apply Bool.eq_false_iff.mpr
  intro also
  obtain ⟨range, mem, low, high⟩ := exists_of_inRanges inside
  obtain ⟨other, mem', low', high'⟩ := exists_of_inRanges also
  simp only [apart, List.all_eq_true, Bool.or_eq_true, decide_eq_true_eq] at disjoint
  have := disjoint range mem other mem'
  omega

theorem isBlank_cases {c : Char} (blank : isBlank c) :
    inRanges c.toNat whiteSpaceRanges ∨ inRanges c.toNat [(0x1C, 0x1F)] :=
  Bool.or_eq_true_iff.mp blank

theorem isLetter_of_isBlank {c : Char} (blank : isBlank c) : isLetter c = false := by
  rcases isBlank_cases blank with white | separator
  · exact inRanges_eq_false_of_apart (by decide +kernel) white
  · exact inRanges_eq_false_of_apart (by decide +kernel) separator

theorem isNumeric_of_isBlank {c : Char} (blank : isBlank c) : isNumeric c = false := by
  rcases isBlank_cases blank with white | separator
  · exact inRanges_eq_false_of_apart (by decide) white
  · exact inRanges_eq_false_of_apart (by decide) separator

theorem isNumeral_of_isBlank {c : Char} (blank : isBlank c) : isNumeral c = false := by
  have point : c ≠ '.' := by
    rintro rfl
    exact absurd blank (by decide)
  simp [isNumeral, isNumeric_of_isBlank blank, point]

theorem isNumeral_of_isLetter {c : Char} (letter : isLetter c) : isNumeral c = false := by
  simp [isNumeral, letter]

theorem isLetter_of_isNumeral {c : Char} (numeral : isNumeral c) : isLetter c = false := by
  simp only [isNumeral, Bool.and_eq_true, Bool.not_eq_true'] at numeral
  exact numeral.2

/-- The characters of the symbols. -/
theorem mem_of_ofSymbol? {c : Char} {kind : Kind} (symbol : Kind.ofSymbol? c = some kind) :
    c ∈ ['+', '-', '*', '/', '^', '(', ')'] := by
  unfold Kind.ofSymbol? at symbol
  split at symbol <;> simp_all

theorem exists_of_mem_symbols {c : Char} (mem : c ∈ ['+', '-', '*', '/', '^', '(', ')']) :
    ∃ kind, Kind.ofSymbol? c = some kind := by
  simp only [List.mem_cons, List.not_mem_nil, or_false] at mem
  rcases mem with rfl | rfl | rfl | rfl | rfl | rfl | rfl <;> exact ⟨_, rfl⟩

theorem classes_of_symbol {c : Char} {kind : Kind} (symbol : Kind.ofSymbol? c = some kind) :
    isBlank c = false ∧ isLetter c = false ∧ isNumeral c = false := by
  have mem := mem_of_ofSymbol? symbol
  simp only [List.mem_cons, List.not_mem_nil, or_false] at mem
  rcases mem with rfl | rfl | rfl | rfl | rfl | rfl | rfl <;> decide

theorem isNumeral_of_illegal {c : Char} (illegal : Illegal c) : isNumeral c = false := by
  obtain ⟨_, _, noNumeric, other⟩ := illegal
  have noPoint : c ≠ '.' := fun point => other (by simp [point])
  simp [isNumeral, noNumeric, noPoint]

end Text

namespace CharClass

open Text

variable {c : Char}

theorem of_blank (blank : isBlank c) : of c = .blank := by
  rw [of, if_pos blank]

theorem of_letter (letter : isLetter c) : of c = .letter := by
  have noBlank : ¬isBlank c := fun blank => by simp [isLetter_of_isBlank blank] at letter
  rw [of, if_neg noBlank, if_pos letter]

theorem of_numeral (numeral : isNumeral c) : of c = .numeral := by
  have noBlank : ¬isBlank c := fun blank => by simp [isNumeral_of_isBlank blank] at numeral
  simp only [isNumeral, Bool.and_eq_true, Bool.not_eq_true'] at numeral
  simp only [of, if_neg noBlank, numeral.1, numeral.2, Bool.false_eq_true, if_false, if_true]

theorem of_symbol {kind : Kind} (symbol : Kind.ofSymbol? c = some kind) : of c = .symbol kind := by
  obtain ⟨noBlank, noLetter, noNumeral⟩ := classes_of_symbol symbol
  simp only [isNumeral, noLetter, Bool.not_false, Bool.and_true, Bool.or_eq_false_iff,
    beq_eq_false_iff_ne] at noNumeral
  simp [of, noBlank, noLetter, noNumeral, symbol]

theorem of_illegal (illegal : Illegal c) : of c = .illegal := by
  obtain ⟨noBlank, noLetter, noNumeric, other⟩ := illegal
  have noSymbol : Kind.ofSymbol? c = none := by
    cases symbol : Kind.ofSymbol? c with
    | none => rfl
    | some kind => exact absurd (List.mem_cons_of_mem '.' (mem_of_ofSymbol? symbol)) other
  have noPoint : c ≠ '.' := fun point => other (by simp [point])
  simp [of, noBlank, noLetter, noNumeric, noPoint, noSymbol]

/-- Every character is of one class. -/
theorem cases (c : Char) :
    isBlank c ∨ isLetter c ∨ isNumeral c ∨ (∃ kind, Kind.ofSymbol? c = some kind) ∨ Illegal c := by
  by_cases blank : isBlank c
  · exact .inl blank
  by_cases letter : isLetter c
  · exact .inr (.inl letter)
  by_cases numeral : isNumeral c
  · exact .inr (.inr (.inl numeral))
  by_cases mem : c ∈ ['+', '-', '*', '/', '^', '(', ')']
  · exact .inr (.inr (.inr (.inl (exists_of_mem_symbols mem))))
  · have noBlank := Bool.eq_false_iff.mpr blank
    have noLetter := Bool.eq_false_iff.mpr letter
    simp only [isNumeral, noLetter, Bool.not_false, Bool.and_true, Bool.or_eq_true, beq_iff_eq,
      not_or, Bool.not_eq_true] at numeral
    refine .inr (.inr (.inr (.inr ⟨noBlank, noLetter, numeral.1, ?_⟩)))
    intro symbol
    exact mem ((List.mem_cons.mp symbol).resolve_left numeral.2)

theorem of_eq_letter : of c = .letter ↔ isLetter c := by
  constructor
  · intro same
    rcases cases c with blank | letter | numeral | ⟨kind, symbol⟩ | illegal
    · simp [of_blank blank] at same
    · exact letter
    · simp [of_numeral numeral] at same
    · simp [of_symbol symbol] at same
    · simp [of_illegal illegal] at same
  · exact of_letter

theorem of_eq_numeral : of c = .numeral ↔ isNumeral c := by
  constructor
  · intro same
    rcases cases c with blank | letter | numeral | ⟨kind, symbol⟩ | illegal
    · simp [of_blank blank] at same
    · simp [of_letter letter] at same
    · exact numeral
    · simp [of_symbol symbol] at same
    · simp [of_illegal illegal] at same
  · exact of_numeral

theorem of_eq_illegal : of c = .illegal ↔ Illegal c := by
  constructor
  · intro same
    rcases cases c with blank | letter | numeral | ⟨kind, symbol⟩ | illegal
    · simp [of_blank blank] at same
    · simp [of_letter letter] at same
    · simp [of_numeral numeral] at same
    · simp [of_symbol symbol] at same
    · exact illegal
  · exact of_illegal

end CharClass

end Formula
