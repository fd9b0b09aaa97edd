import Formula.Proofs.Reading.Origin
import Formula.Proofs.Reading.Printed

/-!
Trees and their texts. Main statements: a plain tree comes back from its text exactly if no power
has a negated base; a tree that was read from a text is read again from its own text, unless a
number in it is written with an exponent.
-/

namespace Formula

open Text Outcome

/-- The number is written with digits, or with digits on both sides of a point. -/
def Number.Pointed (x : Number) : Prop :=
  ∃ whole, whole ≠ [] ∧ (∀ c ∈ whole, c.isDigit) ∧
    (x.toChars = whole ∨ ∃ fraction, fraction ≠ [] ∧ (∀ c ∈ fraction, c.isDigit) ∧
      x.toChars = whole ++ '.' :: fraction)

theorem Number.Pointed.numerals {x : Number} (pointed : x.Pointed) :
    x.toChars ≠ [] ∧ ∀ c ∈ x.toChars, isNumeral c := by
  obtain ⟨whole, nonempty, digits, written | ⟨fraction, _, digits', written⟩⟩ := pointed
  · rw [written]
    exact ⟨nonempty, fun c mem => isNumeral_of_isDigit (digits c mem)⟩
  · rw [written]
    refine ⟨by simp, fun c mem => ?_⟩
    rcases List.mem_append.mp mem with mem | mem
    · exact isNumeral_of_isDigit (digits c mem)
    · rcases List.mem_cons.mp mem with rfl | mem
      · decide
      · exact isNumeral_of_isDigit (digits' c mem)

namespace Expr

/-- A plain tree comes back from its text, up to the sign of a zero, exactly if no power has a
negated base; other trees of this kind come back changed. -/
theorem ofText_text_same_iff {t : Expr} (noExp : ∀ x, .unary .exp x ∉ t.nodes)
    (noPowerOfE : ∀ right, .binary .pow .euler right ∉ t.nodes)
    (names : ∀ name, .var name ∈ t.nodes →
      name.toList ≠ [] ∧ (∀ c ∈ name.toList, isLetter c) ∧ name ∉ Kind.keywords)
    (numbers : ∀ x, .number x ∈ t.nodes →
      x.Pointed ∧ ∃ y, Number.ofText? x.toChars = some y ∧ y.same x)
    {limit : Int} (enough : (t.depth : Int) - 1 ≤ limit) :
    ∃ r, ofText limit t.text = .ok r ∧
      (r.same t ↔ ∀ x right, .binary .pow (.unary .neg x) right ∉ t.nodes) := by
  have plain : t.Plain := ⟨noExp, names, fun x mem => by
    obtain ⟨pointed, y, read, _⟩ := numbers x mem
    exact ⟨pointed.numerals.1, pointed.numerals.2, y, read⟩⟩
  obtain ⟨tokens, _, low, reads⟩ := plain.ofText_text
  refine ⟨t.reread.exponentialForm, reads limit (by omega), no_negatedBase_of_same, ?_⟩
  intro noNegatedBase
  exact same_reread noNegatedBase noPowerOfE fun x mem => (numbers x mem).2

/-- Two and a half. -/
def twoAndHalf : Number := .finite false ⟨0x4004000000000000, by decide⟩

theorem twoAndHalf_pointed : twoAndHalf.Pointed ∧
    ∃ y, Number.ofText? twoAndHalf.toChars = some y ∧ y.same twoAndHalf := by
  have written : twoAndHalf.toChars = "2.5".toList := by decide
  exact ⟨⟨['2'], by decide, List.all_eq_true.mp rfl, .inr ⟨['5'], by decide,
    List.all_eq_true.mp rfl, written⟩⟩, twoAndHalf, by decide, by decide⟩

theorem name_x : "x".toList ≠ [] ∧ (∀ c ∈ "x".toList, isLetter c) ∧ "x" ∉ Kind.keywords :=
  ⟨by decide, List.all_eq_true.mp rfl, by decide⟩

/-- `x ^ 2.5` comes back, and `(-x) ^ 2.5` does not. -/
theorem ofText_text_negatedBase :
    (∃ r, ofText 2 (binary .pow (.var "x") (.number twoAndHalf)).text = .ok r ∧
      r.same (binary .pow (.var "x") (.number twoAndHalf))) ∧
    ∃ r, ofText 2 (binary .pow (.unary .neg (.var "x")) (.number twoAndHalf)).text = .ok r ∧
      r.same (binary .pow (.unary .neg (.var "x")) (.number twoAndHalf)) = false := by
  constructor
  · have enough : ((binary .pow (.var "x") (.number twoAndHalf)).depth : Int) - 1 ≤ 2 := by decide
    obtain ⟨r, back, same⟩ := ofText_text_same_iff (by simp [nodes]) (by simp [nodes])
      (by simpa [nodes] using name_x) (by simpa [nodes] using twoAndHalf_pointed) enough
    exact ⟨r, back, same.mpr (by simp [nodes])⟩
  · have enough :
        ((binary .pow (.unary .neg (.var "x")) (.number twoAndHalf)).depth : Int) - 1 ≤ 2 := by
      decide
    obtain ⟨r, back, same⟩ := ofText_text_same_iff (by simp [nodes]) (by simp [nodes])
      (by simpa [nodes] using name_x) (by simpa [nodes] using twoAndHalf_pointed) enough
    refine ⟨r, back, Bool.eq_false_iff.mpr fun isSame => ?_⟩
    exact same.mp isSame (.var "x") (.number twoAndHalf) (by simp [nodes])

/-- A tree that was read is read again from its text, if all its numbers are written with digits
and a point only; without negated bases the same tree comes back. -/
theorem ofText_text_of_ofText {limit : Int} {text : String} {t : Expr}
    (read : ofText limit text = .ok t) (noExp : ∀ x, .unary .exp x ∉ t.nodes)
    (simple : ∀ x, .number x ∈ t.nodes → ∀ c ∈ x.toChars, c.isDigit ∨ c = '.') :
    ∃ tokens, Token.ofText t.text = .ok tokens ∧
      ∀ limit', Token.nesting tokens ≤ limit' → ∃ r, ofText limit' t.text = .ok r ∧
        ((∀ x right, .binary .pow (.unary .neg x) right ∉ t.nodes) → r.same t) := by
  have numbers (x : Number) (mem : .number x ∈ t.nodes) :
      Number.ofText? x.toChars = some x ∧ x.same x := by
    rcases numbers_of_ofText read x mem with rfl | ⟨rank, rfl⟩
    · exact absurd (simple _ mem 'i' (by decide)) (by decide)
    · exact ⟨Number.ofText?_toChars (simple _ mem), by simp [Number.same]⟩
  have plain : t.Plain := by
    refine ⟨noExp, names_of_ofText read, fun x mem =>
      ⟨?_, fun c inside => ?_, x, (numbers x mem).1⟩⟩
    · intro empty
      have back := (numbers x mem).1
      rw [empty] at back
      cases back
    · rcases simple x mem c inside with digit | rfl
      · exact isNumeral_of_isDigit digit
      · decide
  obtain ⟨tokens, readTokens, _, reads⟩ := plain.ofText_text
  refine ⟨tokens, readTokens, fun limit' enough => ⟨_, reads limit' enough, ?_⟩⟩
  intro noNegatedBase
  exact same_reread noNegatedBase (no_powerOfE_of_ofText read) fun x mem => ⟨x, numbers x mem⟩

theorem rank_quarter : 0x3FD0000000000000 < magnitudes := by decide

/-- One quarter. -/
def quarter : Number := .finite false ⟨0x3FD0000000000000, rank_quarter⟩

/-- The derivation of `0.25-x`. -/
def quarterMinusName : Derivation .sum :=
  let left : Derivation .atom :=
    .literal ⟨.number, "0.25", some quarter, 0⟩ (.number quarter) (.number rfl rfl)
  let right : Derivation .atom := .literal ⟨.name, "x", none, 5⟩ (.var "x") (.name rfl)
  .sum (.product (.unsigned (.base left)) .noFactor)
    (.term ⟨.operator .sub, "-", none, 4⟩ .sub rfl (.inr rfl)
      (.product (.unsigned (.base right)) .noFactor) .noTerm)

theorem ofText_text_quarterMinusName :
    ofText 0 "0.25-x" = .ok (.binary .sub (.number quarter) (.var "x")) ∧
      ∃ r, ofText 1 "(0.25 - x)" = .ok r ∧
        r.same (.binary .sub (.number quarter) (.var "x")) := by
  have read : ofText 0 "0.25-x" = .ok (.binary .sub (.number quarter) (.var "x")) :=
    quarterMinusName.ofText_tokens (by decide) (by decide)
  have digits : quarter.toChars = ['0', '.', '2', '5'] := by decide
  have simple : ∀ c ∈ quarter.toChars, c.isDigit ∨ c = '.' := by
    rw [digits]
    simp
  have written : (binary .sub (.number quarter) (.var "x")).text = "(0.25 - x)" := by
    decide
  obtain ⟨tokens, readTokens, reads⟩ :=
    ofText_text_of_ofText read (by simp [nodes]) (by simpa [nodes] using simple)
  have nested : Token.nesting <$> Token.ofText "(0.25 - x)" = .ok 1 := by decide
  rw [written] at readTokens reads
  have depth : Token.nesting tokens = 1 := by
    rw [readTokens] at nested
    exact Except.ok.inj nested
  obtain ⟨r, back, same⟩ := reads 1 depth.le
  exact ⟨read, r, back, same (by simp [nodes])⟩

/-- The double nearest to 0.00001. -/
def hundredThousandth : Number := .finite false ⟨0x3EE4F8B588E368F1, by decide⟩

/-- The derivation of `(-x)^2.5`. -/
def powerOfNegation : Derivation .sum :=
  let name : Derivation .atom := .literal ⟨.name, "x", none, 2⟩ (.var "x") (.name rfl)
  let negation : Derivation .unary :=
    .negative ⟨.operator .sub, "-", none, 1⟩ rfl (.unsigned (.base name))
  let group : Derivation .atom :=
    .group ⟨.opening, "(", none, 0⟩ (Eq.refl Kind.opening)
      (.sum (.product negation .noFactor) .noTerm) ⟨.closing, ")", none, 3⟩ (Eq.refl Kind.closing)
  let exponent : Derivation .atom :=
    .literal ⟨.number, "2.5", some twoAndHalf, 5⟩ (.number twoAndHalf) (.number rfl rfl)
  .sum (.product (.unsigned (.raised group ⟨.operator .pow, "^", none, 4⟩ rfl
    (.unsigned (.base exponent)))) .noFactor) .noTerm

theorem ofText_powerOfNegation :
    ofText 200 "(-x)^2.5" = .ok (.binary .pow (.unary .neg (.var "x")) (.number twoAndHalf)) :=
  powerOfNegation.ofText_tokens (by decide) (by decide)

theorem text_powerOfNegation :
    (binary .pow (.unary .neg (.var "x")) (.number twoAndHalf)).text = "(-x ^ 2.5)" := by decide

theorem ofText_text_powerOfNegation :
    ofText 200 "(-x ^ 2.5)" = .ok (.unary .neg (.binary .pow (.var "x") (.number twoAndHalf))) := by
  have back : Number.ofText? twoAndHalf.toChars = some twoAndHalf := by decide
  have number : twoAndHalf.toChars ≠ [] ∧ ∀ c ∈ twoAndHalf.toChars, isNumeral c :=
    ⟨by decide, List.all_eq_true.mp rfl⟩
  have plain : (binary .pow (.unary .neg (.var "x")) (.number twoAndHalf)).Plain :=
    ⟨by simp [nodes], by simpa [nodes] using name_x, by simpa [nodes, back] using number⟩
  obtain ⟨tokens, _, low, reads⟩ := plain.ofText_text
  rw [← text_powerOfNegation, reads 200 (low.le.trans (by decide))]
  simp [reread, core, signs, operation, Item.negate, exponentialForm, back]

/-- The derivation of `0.00001`. -/
def smallLiteral : Derivation .sum :=
  let literal : Derivation .atom := .literal ⟨.number, "0.00001", some hundredThousandth, 0⟩
    (.number hundredThousandth) (.number rfl rfl)
  .sum (.product (.unsigned (.base literal)) .noFactor) .noTerm

/-- The tokens of `1e-05`. -/
def scientificTokens : List Token :=
  [⟨.number, "1", some (.finite false ⟨0x3FF0000000000000, by decide⟩), 0⟩,
    ⟨.euler, "e", none, 1⟩, ⟨.operator .sub, "-", none, 2⟩,
    ⟨.number, "05", some (.finite false ⟨0x4014000000000000, by decide⟩), 3⟩]

theorem ofText_scientific : ofText 200 "1e-05" = .error .noOperator := by
  have read : Token.ofText "1e-05" = .ok scientificTokens := by decide
  have bound : Item.bindCalls (scientificTokens.map .token) =
      .ok (scientificTokens.map .token) := rfl
  have assembled : Item.assemble (scientificTokens.map .token) = .error .noOperator := by
    rw [Item.assemble_eq_sum]
    rfl
  have fails : ofTokens 200 scientificTokens = .error .noOperator := by
    rw [ofTokens_eq (by decide)]
    refine bind_eq_error.mpr (.inr ⟨scientificTokens.map .token, rfl, ?_⟩)
    exact bind_eq_error.mpr (.inr ⟨_, bound, by rw [assembled]; rfl⟩)
  rw [ofText, read]
  exact fails

/-- Not every text leads back: the text of `(-x)^2.5` is read as `-(x^2.5)`, and the exponent with
which a small number is written is not read at all. -/
theorem ofText_text_changed :
    (ofText 200 "(-x)^2.5" = .ok (.binary .pow (.unary .neg (.var "x")) (.number twoAndHalf)) ∧
      (binary .pow (.unary .neg (.var "x")) (.number twoAndHalf)).text = "(-x ^ 2.5)" ∧
      ofText 200 "(-x ^ 2.5)" = .ok (.unary .neg (.binary .pow (.var "x") (.number twoAndHalf))) ∧
      (unary .neg (.binary .pow (.var "x") (.number twoAndHalf))).same
        (.binary .pow (.unary .neg (.var "x")) (.number twoAndHalf)) = false) ∧
    ofText 200 "0.00001" = .ok (.number hundredThousandth) ∧
      (number hundredThousandth).text = "1e-05" ∧
      ofText 200 "1e-05" = .error .noOperator :=
  ⟨⟨ofText_powerOfNegation, text_powerOfNegation, ofText_text_powerOfNegation, rfl⟩,
    smallLiteral.ofText_tokens (by decide) (by decide), by decide,
    ofText_scientific⟩

end Expr

end Formula
