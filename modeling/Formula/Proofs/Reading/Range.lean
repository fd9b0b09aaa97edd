import Formula.Proofs.Reading.Origin
import Formula.Proofs.Reading.Printed

/-!
The trees that can be read. Main statement: they are the trees in which no power has the base e;
those that are read from a text have names that are no keywords and numbers without a sign.
-/

namespace Formula

open Text

/-- A tree without a power of e is what some atom is read as: operations stand in parentheses, and
`exp(x)` is written as a power of e. -/
theorem Derivation.exists_atom {t : Expr} (normal : ∀ right, .binary .pow .euler right ∉ t.nodes) :
    ∃ d : Derivation .atom, d.tree.exponentialForm = t := by
  let grouped (inner : Derivation .sum) : Derivation .atom :=
    .group ⟨.opening, "(", none, 0⟩ rfl inner ⟨.closing, ")", none, 0⟩ rfl
  induction t with
  | number x => exact ⟨.literal ⟨.number, x.text, some x, 0⟩ (.number x) (.number rfl rfl), rfl⟩
  | var name => exact ⟨.literal ⟨.name, name, none, 0⟩ (.var name) (.name rfl), rfl⟩
  | pi => exact ⟨.literal ⟨.pi, "pi", none, 0⟩ .pi (.pi rfl), rfl⟩
  | euler => exact ⟨.literal ⟨.euler, "e", none, 0⟩ .euler (.euler rfl), rfl⟩
  | binary op left right ihLeft ihRight =>
    obtain ⟨l, formLeft⟩ := ihLeft fun r mem => normal r (Expr.nodes_left _ _ _ mem)
    obtain ⟨r, formRight⟩ := ihRight fun r mem => normal r (Expr.nodes_right _ _ _ mem)
    obtain ⟨inner, _, tree⟩ := Derivation.exists_operation
      (by simp : ∀ s ∈ ([] : List Token), s.kind = .operator .sub)
      (rfl : (Token.mk (.operator op) op.symbol none 0).kind = .operator op) l r.bare
    -- the operands have their forms already, and the operation adds no power of e
    have noPower : ¬(op = .pow ∧ l.tree.exponentialForm = .euler) := by
      rintro ⟨rfl, base⟩
      rw [formLeft] at base
      subst base
      exact normal right (Expr.self_mem_nodes _)
    have operation : inner.tree = .binary op l.tree r.tree := by
      rw [tree]
      cases op <;> rfl
    refine ⟨grouped inner, ?_⟩
    rw [← formLeft, ← formRight, ← Expr.exponentialForm_binary_of_ne noPower, ← operation]
    rfl
  | unary op operand ih =>
    obtain ⟨d, form⟩ := ih fun r mem => normal r (Expr.nodes_operand _ _ mem)
    subst form
    cases op with
    | neg => exact ⟨grouped (.single (.negative ⟨.operator .sub, "-", none, 0⟩ rfl d.bare)), rfl⟩
    | exp =>
      let base : Derivation .atom := .literal ⟨.euler, "e", none, 0⟩ .euler (.euler rfl)
      let power : Derivation .power := .raised base ⟨.operator .pow, "^", none, 0⟩ rfl d.bare
      exact ⟨grouped (.single (.unsigned power)), rfl⟩
    | apply f =>
      exact ⟨.call ⟨.function f, f.name, none, 0⟩ f rfl ⟨.opening, "(", none, 0⟩ rfl
        (.single d.bare) ⟨.closing, ")", none, 0⟩ rfl, rfl⟩

namespace Expr

/-- Exactly the trees in which no power has the base e are read from some tokens. If the tokens
come from a text, the names are runs of letters that are no keyword, and the numbers have no
sign. -/
theorem exists_ofTokens_iff :
    (∀ t : Expr, (∃ limit tokens, ofTokens limit tokens = .ok t) ↔
      ∀ right, .binary .pow .euler right ∉ t.nodes) ∧
    ∀ (limit : Int) (text : String) (t : Expr), ofText limit text = .ok t →
      (∀ name, .var name ∈ t.nodes →
        name.toList ≠ [] ∧ (∀ c ∈ name.toList, isLetter c) ∧ name ∉ Kind.keywords) ∧
      ∀ x, .number x ∈ t.nodes → x ≠ .nan ∧ x.isNegative = false := by
  refine ⟨fun t => ⟨?_, ?_⟩, ?_⟩
  · rintro ⟨limit, tokens, read⟩ right
    obtain ⟨d, _, rfl⟩ := derivation_of_ofTokens read
    exact no_powerOfE_exponentialForm _ _
  · intro normal
    obtain ⟨d, form⟩ := Derivation.exists_atom normal
    let whole : Derivation .sum := .single d.bare
    have read := whole.ofTokens_tokens (Int.le_refl (Token.nesting whole.tokens))
    exact ⟨_, _, read.trans (congrArg Except.ok form)⟩
  · intro limit text t read
    refine ⟨names_of_ofText read, fun x mem => ?_⟩
    obtain rfl | ⟨rank, rfl⟩ := numbers_of_ofText read x mem
    · exact ⟨by simp, rfl⟩
    · exact ⟨by simp, rfl⟩

/-- One quarter. -/
def oneFourth : Number := .finite false ⟨0x3FD0000000000000, by decide⟩

/-- The derivation of `0.25/e^-x`. -/
def quotientByPowerOfE : Derivation .sum :=
  let number : Derivation .atom :=
    .literal ⟨.number, "0.25", some oneFourth, 0⟩ (.number oneFourth) (.number rfl rfl)
  let euler : Derivation .atom := .literal ⟨.euler, "e", none, 5⟩ .euler (.euler rfl)
  let name : Derivation .atom := .literal ⟨.name, "x", none, 8⟩ (.var "x") (.name rfl)
  let power : Derivation .power := .raised euler ⟨.operator .pow, "^", none, 6⟩ rfl
    (.negative ⟨.operator .sub, "-", none, 7⟩ rfl name.bare)
  .sum (.product number.bare
    (.factor ⟨.operator .div, "/", none, 4⟩ .div rfl (.inr rfl) (.unsigned power) .noFactor))
    .noTerm

theorem exists_ofTokens_quotientByPowerOfE :
    let t := binary .div (.number oneFourth) (.unary .exp (.unary .neg (.var "x")))
    ofText 0 "0.25/e^-x" = .ok t ∧
      ("x".toList ≠ [] ∧ (∀ c ∈ "x".toList, isLetter c) ∧ "x" ∉ Kind.keywords) ∧
      (oneFourth ≠ .nan ∧ oneFourth.isNegative = false) ∧
      ∃ limit tokens, ofTokens limit tokens = .ok (.unary .exp t) := by
  have read : ofText 0 "0.25/e^-x" =
      .ok (.binary .div (.number oneFourth) (.unary .exp (.unary .neg (.var "x")))) :=
    quotientByPowerOfE.ofText_tokens (by decide) (by decide)
  obtain ⟨trees, texts⟩ := exists_ofTokens_iff
  obtain ⟨names, numbers⟩ := texts 0 "0.25/e^-x" _ read
  refine ⟨read, names "x" (by simp [nodes]), numbers oneFourth (by simp [nodes]), ?_⟩
  exact (trees _).mpr (by simp [nodes])

end Expr

end Formula
