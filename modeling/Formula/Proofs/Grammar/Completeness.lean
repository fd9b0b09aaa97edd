import Formula.Proofs.Grammar.Soundness
import Formula.Proofs.Item.Phrases

/-!
What has a derivation is read. The items of each step of the reading are computed from the
derivation; which tree comes out is then known from soundness, since derivations are unique.
Main statement: the tokens that are read are those that have a derivation, and the tree is that
of the derivation in exponential form.
-/

namespace Formula

open Outcome

namespace Derivation

/-- The items of a phrase while calls are bound, with `call` for a keyword and its argument. -/
def itemsWith (call : Token → Elementary → Expr → List Item) :
    {n : Nonterminal} → Derivation n → List Item
  | _, .sum first rest => first.itemsWith call ++ rest.itemsWith call
  | _, .noTerm => []
  | _, .term t _ _ _ operand rest =>
    .token t :: (operand.itemsWith call ++ rest.itemsWith call)
  | _, .product first rest => first.itemsWith call ++ rest.itemsWith call
  | _, .noFactor => []
  | _, .factor t _ _ _ operand rest =>
    .token t :: (operand.itemsWith call ++ rest.itemsWith call)
  | _, .negative t _ operand => .token t :: operand.itemsWith call
  | _, .unsigned operand => operand.itemsWith call
  | _, .base operand => operand.itemsWith call
  | _, .raised left t _ exponent => left.itemsWith call ++ .token t :: exponent.itemsWith call
  | _, .literal t _ _ => [.token t]
  | _, .group _ _ inner _ _ => [.tree inner.tree.exponentialForm]
  | _, .call t f _ _ _ inner _ _ => call t f inner.tree.exponentialForm

/-- The items before calls are bound. -/
abbrev resolved {n : Nonterminal} (d : Derivation n) : List Item :=
  d.itemsWith fun t _ argument => [.token t, .tree argument]

/-- The items after calls are bound. -/
abbrev items {n : Nonterminal} (d : Derivation n) : List Item :=
  d.itemsWith fun _ f argument => [.tree (.unary (.apply f) argument)]

variable {n : Nonterminal}

theorem balanced (d : Derivation n) : Token.Balanced d.tokens := by
  induction d with
  | sum first rest ihFirst ihRest => exact ihFirst.append ihRest
  | noTerm => exact Token.balanced_nil
  | term t op isOperator level operand rest ihOperand ihRest =>
    have plain := Token.level_of_operator isOperator
    exact (Token.balanced_cons plain).mpr (ihOperand.append ihRest)
  | product first rest ihFirst ihRest => exact ihFirst.append ihRest
  | noFactor => exact Token.balanced_nil
  | factor t op isOperator level operand rest ihOperand ihRest =>
    have plain := Token.level_of_operator isOperator
    exact (Token.balanced_cons plain).mpr (ihOperand.append ihRest)
  | negative t isMinus operand ih =>
    have plain := Token.level_of_operator isMinus
    exact (Token.balanced_cons plain).mpr ih
  | unsigned operand ih => exact ih
  | base operand ih => exact ih
  | raised left t isCaret exponent ihLeft ihExponent =>
    have plain := Token.level_of_operator isCaret
    exact ihLeft.append ((Token.balanced_cons plain).mpr ihExponent)
  | literal t e isLiteral =>
    have plain := isLiteral.level
    exact (Token.balanced_cons plain).mpr Token.balanced_nil
  | group opening isOpening inner closing isClosing ih =>
    exact (Token.balanced_group isOpening isClosing ih).mpr Token.balanced_nil
  | call t f isFunction opening isOpening inner closing isClosing ih =>
    have plain := Token.level_of_function isFunction
    have group := (Token.balanced_group isOpening isClosing ih).mpr Token.balanced_nil
    exact (Token.balanced_cons plain).mpr group

theorem bindCalls_resolved (d : Derivation n) (rest : List Item) :
    Item.bindCalls (d.resolved ++ rest) = (d.items ++ ·) <$> Item.bindCalls rest := by
  have operator {t : Token} {op : BinaryOp} (isOperator : t.kind = .operator op) :
      (Item.token t).function? = none := by simp [Item.function?, isOperator]
  induction d generalizing rest with
  | sum first terms ihFirst ihTerms =>
    simp only [itemsWith, List.append_assoc, ihFirst, ihTerms, Functor.map_map]
  | noTerm => exact (id_map _).symm
  | term t op isOperator level operand terms ihOperand ihTerms =>
    simp only [itemsWith, List.cons_append, List.append_assoc,
      Item.bindCalls_cons (operator isOperator), ihOperand, ihTerms, Functor.map_map]
  | product first factors ihFirst ihFactors =>
    simp only [itemsWith, List.append_assoc, ihFirst, ihFactors, Functor.map_map]
  | noFactor => exact (id_map _).symm
  | factor t op isOperator level operand factors ihOperand ihFactors =>
    simp only [itemsWith, List.cons_append, List.append_assoc,
      Item.bindCalls_cons (operator isOperator), ihOperand, ihFactors, Functor.map_map]
  | negative t isMinus operand ih =>
    simp only [itemsWith, List.cons_append, Item.bindCalls_cons (operator isMinus), ih,
      Functor.map_map]
  | unsigned operand ih => exact ih rest
  | base operand ih => exact ih rest
  | raised left t isCaret exponent ihLeft ihExponent =>
    simp only [itemsWith, List.append_assoc, List.cons_append, ihLeft,
      Item.bindCalls_cons (operator isCaret), ihExponent, Functor.map_map]
  | literal t e isLiteral =>
    have noCall : (Item.token t).function? = none := by
      rcases isLiteral.kind with kind | kind | kind | kind <;> simp [Item.function?, kind]
    exact Item.bindCalls_cons noCall rest
  | group opening isOpening inner closing isClosing ih => exact Item.bindCalls_cons rfl rest
  | call t f isFunction opening isOpening inner closing isClosing ih =>
    exact Item.bindCalls_call isFunction _ rest

end Derivation

/-- The items of a phrase are accepted at the level of assembly that belongs to it. -/
def Nonterminal.Accepts : Nonterminal → List Item → Prop
  | .sum, items => ∃ e, Item.sum items = .ok e
  | .terms, items => Item.Repetition Item.additive? Item.product items
  | .product, items => Item.Phrase Item.product items
  | .factors, items => Item.Repetition Item.multiplicative? Item.power items
  | .unary, items => Item.Operand items
  | .power, items => Item.Operand items
  | .atom, items => ∃ item e, items = [item] ∧ item.leaf = .ok e ∧ item.isOperator = false

namespace Derivation

variable {n : Nonterminal}

theorem items_accepted (d : Derivation n) : n.Accepts d.items := by
  induction d with
  | sum first rest ihFirst ihRest => exact ihFirst.sum ihRest
  | noTerm => exact .nil
  | term t op isOperator level operand rest ihOperand ihRest =>
    exact ihOperand.term (Item.operator_token.mpr isOperator) level ihRest
  | product first rest ihFirst ihRest => exact ihFirst.product ihRest
  | noFactor => exact .nil
  | factor t op isOperator level operand rest ihOperand ihRest =>
    exact ihOperand.factor (Item.operator_token.mpr isOperator) level ihRest
  | negative t isMinus operand ih => exact ih.negative (Item.operator_token.mpr isMinus)
  | unsigned operand ih => exact ih
  | base operand ih =>
    obtain ⟨item, e, single, isLeaf, noOperator⟩ := ih
    show Item.Operand operand.items
    rw [single]
    exact .leaf isLeaf noOperator
  | raised left t isCaret exponent ihLeft ihExponent =>
    obtain ⟨item, e, single, isLeaf, noOperator⟩ := ihLeft
    show Item.Operand (left.items ++ .token t :: exponent.items)
    rw [single]
    exact ihExponent.raised isLeaf noOperator (Item.operator_token.mpr isCaret)
  | literal t e isLiteral =>
    have isLeaf : (Item.token t).leaf = .ok e := by
      cases isLiteral <;> simp_all [Item.leaf]
    have noOperator : (Item.token t).isOperator = false := by
      cases isLiteral <;> simp_all [Item.isOperator, Item.operator?]
    exact ⟨_, e, rfl, isLeaf, noOperator⟩
  | group opening isOpening inner closing isClosing ih => exact ⟨_, _, rfl, rfl, rfl⟩
  | call t f isFunction opening isOpening inner closing isClosing ih => exact ⟨_, _, rfl, rfl, rfl⟩

variable {limit : Int}

/-- If the groups of a sum are read, then the sum is read, and as the derivation says: the tree
has a derivation by soundness, and there is only one. -/
theorem ofTokens_of_resolve (d : Derivation .sum) (enough : Token.nesting d.tokens ≤ limit)
    (groups : ∀ rest, Item.resolve (Expr.ofTokens limit) (d.tokens ++ rest) =
      (d.resolved ++ ·) <$> Item.resolve (Expr.ofTokens limit) rest) :
    Expr.ofTokens limit d.tokens = .ok d.tree.exponentialForm := by
  have resolved : Item.resolve (Expr.ofTokens limit) d.tokens = .ok d.resolved := by
    have := groups []
    rw [List.append_nil] at this
    exact this.trans (map_eq_ok.mpr ⟨[], rfl, List.append_nil _⟩)
  have bound : Item.bindCalls d.resolved = .ok d.items := by
    have := d.bindCalls_resolved []
    rw [List.append_nil] at this
    exact this.trans (map_eq_ok.mpr ⟨[], rfl, List.append_nil _⟩)
  obtain ⟨e, accepted⟩ := d.items_accepted
  have assembled : Item.assemble d.items = .ok e := (Item.assemble_eq_sum _).trans accepted
  have read : Expr.ofTokens limit d.tokens = .ok e.exponentialForm := by
    rw [Expr.ofTokens_eq enough, resolved]
    exact bind_eq_ok.mpr ⟨_, rfl, bind_eq_ok.mpr ⟨_, bound, map_eq_ok.mpr ⟨e, assembled, rfl⟩⟩⟩
  obtain ⟨d', sameTokens, tree⟩ := Expr.derivation_of_ofTokens read
  obtain rfl := tokens_injective sameTokens
  rw [read, tree]

theorem resolve_tokens (d : Derivation n) (enough : Token.nesting d.tokens ≤ limit)
    (rest : List Token) :
    Item.resolve (Expr.ofTokens limit) (d.tokens ++ rest) =
      (d.resolved ++ ·) <$> Item.resolve (Expr.ofTokens limit) rest := by
  induction d generalizing rest with
  | sum first terms ihFirst ihTerms =>
    rw [tokens, first.balanced.nesting_append] at enough
    simp only [tokens, itemsWith, List.append_assoc, ihFirst (by omega), ihTerms (by omega),
      Functor.map_map]
  | noTerm => exact (id_map _).symm
  | term t op isOperator level operand terms ihOperand ihTerms =>
    have plain := Token.level_of_operator isOperator
    rw [tokens, Token.nesting_plain plain, operand.balanced.nesting_append] at enough
    simp only [tokens, itemsWith, List.cons_append, List.append_assoc, Item.resolve_plain plain,
      ihOperand (by omega), ihTerms (by omega), Functor.map_map]
  | product first factors ihFirst ihFactors =>
    rw [tokens, first.balanced.nesting_append] at enough
    simp only [tokens, itemsWith, List.append_assoc, ihFirst (by omega), ihFactors (by omega),
      Functor.map_map]
  | noFactor => exact (id_map _).symm
  | factor t op isOperator level operand factors ihOperand ihFactors =>
    have plain := Token.level_of_operator isOperator
    rw [tokens, Token.nesting_plain plain, operand.balanced.nesting_append] at enough
    simp only [tokens, itemsWith, List.cons_append, List.append_assoc, Item.resolve_plain plain,
      ihOperand (by omega), ihFactors (by omega), Functor.map_map]
  | negative t isMinus operand ih =>
    have plain := Token.level_of_operator isMinus
    rw [tokens, Token.nesting_plain plain] at enough
    simp only [tokens, itemsWith, List.cons_append, Item.resolve_plain plain, ih enough,
      Functor.map_map]
  | unsigned operand ih => exact ih enough rest
  | base operand ih => exact ih enough rest
  | raised left t isCaret exponent ihLeft ihExponent =>
    have plain := Token.level_of_operator isCaret
    rw [tokens, left.balanced.nesting_append, Token.nesting_plain plain] at enough
    simp only [tokens, itemsWith, List.append_assoc, List.cons_append, ihLeft (by omega),
      Item.resolve_plain plain, ihExponent (by omega), Functor.map_map]
  | literal t e isLiteral => exact Item.resolve_plain isLiteral.level
  | group opening isOpening inner closing isClosing ih =>
    rw [tokens, Token.nesting_group isOpening isClosing inner.balanced] at enough
    have read := inner.ofTokens_of_resolve (by omega) (ih (by omega))
    simp only [tokens, itemsWith, List.cons_append, List.append_assoc, List.nil_append,
      Item.resolve_group isOpening isClosing inner.balanced, read]
    rfl
  | call t f isFunction opening isOpening inner closing isClosing ih =>
    have plain := Token.level_of_function isFunction
    rw [tokens, Token.nesting_plain plain,
      Token.nesting_group isOpening isClosing inner.balanced] at enough
    have read := inner.ofTokens_of_resolve (by omega) (ih (by omega))
    simp only [tokens, itemsWith, List.cons_append, List.append_assoc, List.nil_append,
      Item.resolve_plain plain, Item.resolve_group isOpening isClosing inner.balanced, read]
    exact Functor.map_map _ _ _

/-- With room for its nesting, what is derived is read. -/
theorem ofTokens_tokens (d : Derivation .sum) (enough : Token.nesting d.tokens ≤ limit) :
    Expr.ofTokens limit d.tokens = .ok d.tree.exponentialForm :=
  d.ofTokens_of_resolve enough (d.resolve_tokens enough)

theorem ofText_tokens (d : Derivation .sum) {text : String}
    (split : Token.ofText text = .ok d.tokens) (enough : Token.nesting d.tokens ≤ limit) :
    Expr.ofText limit text = .ok d.tree.exponentialForm := by
  rw [Expr.ofText, split]
  exact d.ofTokens_tokens enough

end Derivation

namespace Expr

/-- With enough room for the nesting, exactly the tokens with a derivation are read. There is one
derivation, and the tree is that of the derivation in exponential form. -/
theorem ofTokens_iff_derivation {tokens : List Token} {limit : Int}
    (enough : Token.nesting tokens ≤ limit) :
    ((∃ e, ofTokens limit tokens = .ok e) ↔ ∃ d : Derivation .sum, d.tokens = tokens) ∧
    (∀ d d' : Derivation .sum, d.tokens = tokens → d'.tokens = tokens → d = d') ∧
    ∀ d : Derivation .sum, d.tokens = tokens →
      ofTokens limit tokens = .ok d.tree.exponentialForm := by
  have reads (d : Derivation .sum) (derives : d.tokens = tokens) :
      ofTokens limit tokens = .ok d.tree.exponentialForm := by
    subst derives
    exact d.ofTokens_of_resolve enough (d.resolve_tokens enough)
  refine ⟨⟨?_, ?_⟩, ?_, reads⟩
  · rintro ⟨e, read⟩
    obtain ⟨d, derives, _⟩ := derivation_of_ofTokens read
    exact ⟨d, derives⟩
  · rintro ⟨d, derives⟩
    exact ⟨_, reads d derives⟩
  · intro d d' derives derives'
    exact Derivation.tokens_injective (derives.trans derives'.symm)

/-- The derivation of `-e^(x)`. -/
def negatedPower : Derivation .sum :=
  let name : Derivation .atom := .literal ⟨.name, "x", none, 4⟩ (.var "x") (.name rfl)
  let inner : Derivation .sum := .sum (.product (.unsigned (.base name)) .noFactor) .noTerm
  let group : Derivation .atom :=
    .group ⟨.opening, "(", none, 3⟩ rfl inner ⟨.closing, ")", none, 5⟩ rfl
  let euler : Derivation .atom := .literal ⟨.euler, "e", none, 1⟩ .euler (.euler rfl)
  let power : Derivation .power :=
    .raised euler ⟨.operator .pow, "^", none, 2⟩ rfl (.unsigned (.base group))
  .sum (.product (.negative ⟨.operator .sub, "-", none, 0⟩ rfl (.unsigned power)) .noFactor)
    .noTerm

theorem ofTokens_negatedPower :
    Token.nesting negatedPower.tokens ≤ 1 ∧
      ofTokens 1 negatedPower.tokens = .ok (.unary .neg (.unary .exp (.var "x"))) := by
  have enough : Token.nesting negatedPower.tokens ≤ 1 := by decide
  obtain ⟨_, _, reads⟩ := ofTokens_iff_derivation enough
  exact ⟨enough, reads negatedPower rfl⟩

end Expr

end Formula
