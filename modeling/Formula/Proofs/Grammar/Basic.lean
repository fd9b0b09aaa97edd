import Formula.Proofs.Token.Nesting

/-!
The grammar of formulas over tokens. A derivation is kept with all its tokens, so that it says
both what was read and which tree this means. Main statement: no list of tokens has two
derivations.
-/

namespace Formula

/-- A token that is an operand by itself, and the leaf it stands for. -/
inductive Token.Literal (t : Token) : Expr → Prop where
  | number {value : Number} (kind : t.kind = .number) (number : t.number = some value) :
    Literal t (.number value)
  | name (kind : t.kind = .name) : Literal t (.var t.text)
  | pi (kind : t.kind = .pi) : Literal t .pi
  | euler (kind : t.kind = .euler) : Literal t .euler

theorem Token.Literal.unique {t : Token} {e e' : Expr} (left : t.Literal e)
    (right : t.Literal e') : e = e' := by
  cases left <;> cases right <;> simp_all

theorem Token.Literal.kind {t : Token} {e : Expr} (isLiteral : t.Literal e) :
    t.kind = .number ∨ t.kind = .name ∨ t.kind = .pi ∨ t.kind = .euler := by
  cases isLiteral <;> simp_all

theorem Token.Literal.not_opening {t : Token} {e : Expr} (isLiteral : t.Literal e)
    (isOpening : t.kind = .opening) : False := by
  have kind := isLiteral.kind
  simp [isOpening] at kind

theorem Token.Literal.not_function {t : Token} {e : Expr} {f : Elementary}
    (isLiteral : t.Literal e) (isFunction : t.kind = .function f) : False := by
  have kind := isLiteral.kind
  simp [isFunction] at kind

theorem Token.Literal.level {t : Token} {e : Expr} (isLiteral : t.Literal e) : t.level = 0 := by
  have kind := isLiteral.kind
  apply Token.level_eq_zero.mpr
  constructor <;> intro same <;> simp [same] at kind

inductive Nonterminal where
  | sum | terms | product | factors | unary | power | atom

/-- What a derivation means: a tree, or what a repetition makes of the operand before it. -/
abbrev Nonterminal.Value : Nonterminal → Type
  | .terms => Expr → Expr
  | .factors => Expr → Expr
  | _ => Expr

/--
The derivations of the grammar

    sum     ::= product (('+' | '-') product)*
    product ::= unary (('*' | '/') unary)*
    unary   ::= '-' unary | power
    power   ::= atom | atom '^' unary
    atom    ::= literal | '(' sum ')' | function '(' sum ')'

where `terms` and `factors` are its two repetitions.
-/
inductive Derivation : Nonterminal → Type where
  | sum (first : Derivation .product) (rest : Derivation .terms) : Derivation .sum
  | noTerm : Derivation .terms
  | term (t : Token) (op : BinaryOp) (isOperator : t.kind = .operator op)
    (level : op = .add ∨ op = .sub) (operand : Derivation .product) (rest : Derivation .terms) :
    Derivation .terms
  | product (first : Derivation .unary) (rest : Derivation .factors) : Derivation .product
  | noFactor : Derivation .factors
  | factor (t : Token) (op : BinaryOp) (isOperator : t.kind = .operator op)
    (level : op = .mul ∨ op = .div) (operand : Derivation .unary) (rest : Derivation .factors) :
    Derivation .factors
  | negative (t : Token) (isMinus : t.kind = .operator .sub) (operand : Derivation .unary) :
    Derivation .unary
  | unsigned (operand : Derivation .power) : Derivation .unary
  | base (operand : Derivation .atom) : Derivation .power
  | raised (left : Derivation .atom) (t : Token) (isCaret : t.kind = .operator .pow)
    (exponent : Derivation .unary) : Derivation .power
  | literal (t : Token) (e : Expr) (isLiteral : t.Literal e) : Derivation .atom
  | group (opening : Token) (isOpening : opening.kind = .opening) (inner : Derivation .sum)
    (closing : Token) (isClosing : closing.kind = .closing) : Derivation .atom
  | call (t : Token) (f : Elementary) (isFunction : t.kind = .function f)
    (opening : Token) (isOpening : opening.kind = .opening) (inner : Derivation .sum)
    (closing : Token) (isClosing : closing.kind = .closing) : Derivation .atom

namespace Derivation

/-- The tokens that are derived, left to right. -/
def tokens : {n : Nonterminal} → Derivation n → List Token
  | _, .sum first rest => first.tokens ++ rest.tokens
  | _, .noTerm => []
  | _, .term t _ _ _ operand rest => t :: (operand.tokens ++ rest.tokens)
  | _, .product first rest => first.tokens ++ rest.tokens
  | _, .noFactor => []
  | _, .factor t _ _ _ operand rest => t :: (operand.tokens ++ rest.tokens)
  | _, .negative t _ operand => t :: operand.tokens
  | _, .unsigned operand => operand.tokens
  | _, .base operand => operand.tokens
  | _, .raised left t _ exponent => left.tokens ++ t :: exponent.tokens
  | _, .literal t _ _ => [t]
  | _, .group opening _ inner closing _ => opening :: (inner.tokens ++ [closing])
  | _, .call t _ _ opening _ inner closing _ => t :: opening :: (inner.tokens ++ [closing])

/-- The tree of a derivation. Repetitions group to the left and `^` to the right, a minus sign
covers a whole power, and parentheses leave no node. -/
def tree : {n : Nonterminal} → Derivation n → n.Value
  | _, .sum first rest => rest.tree first.tree
  | _, .noTerm => fun left => left
  | _, .term _ op _ _ operand rest => fun left => rest.tree (.binary op left operand.tree)
  | _, .product first rest => rest.tree first.tree
  | _, .noFactor => fun left => left
  | _, .factor _ op _ _ operand rest => fun left => rest.tree (.binary op left operand.tree)
  | _, .negative _ _ operand => .unary .neg operand.tree
  | _, .unsigned operand => operand.tree
  | _, .base operand => operand.tree
  | _, .raised left _ _ exponent => .binary .pow left.tree exponent.tree
  | _, .literal _ e _ => e
  | _, .group _ _ inner _ _ => inner.tree
  | _, .call _ f _ _ _ inner _ _ => .unary (.apply f) inner.tree

/-- A sum of one operand. -/
def single (operand : Derivation .unary) : Derivation .sum :=
  .sum (.product operand .noFactor) .noTerm

@[simp]
theorem single_tokens (operand : Derivation .unary) : (single operand).tokens = operand.tokens :=
  (List.append_nil _).trans (List.append_nil _)

@[simp]
theorem single_tree (operand : Derivation .unary) : (single operand).tree = operand.tree := rfl

/-- An atom without sign and exponent. -/
abbrev bare (operand : Derivation .atom) : Derivation .unary := .unsigned (.base operand)

end Derivation

/-- The operators that can follow a phrase and still belong to it. -/
def Nonterminal.continuing : Nonterminal → List BinaryOp
  | .sum => BinaryOp.all
  | .terms => BinaryOp.all
  | .product => [.mul, .div, .pow]
  | .factors => [.mul, .div, .pow]
  | .unary => [.pow]
  | .power => [.pow]
  | .atom => []

/-- A phrase ends before these tokens. -/
def Nonterminal.Ends (n : Nonterminal) (rest : List Token) : Prop :=
  ∀ t ∈ rest.head?, ∀ op ∈ n.continuing, t.kind ≠ .operator op

theorem Nonterminal.ends_nil (n : Nonterminal) : n.Ends [] := by
  simp [Ends]

theorem Nonterminal.ends_cons {n : Nonterminal} {t : Token} {rest : List Token} :
    n.Ends (t :: rest) ↔ ∀ op ∈ n.continuing, t.kind ≠ .operator op := by
  simp [Ends]

/-- Nothing can follow an atom and still belong to it. -/
theorem Nonterminal.ends_atom (rest : List Token) : Ends .atom rest :=
  fun _ _ _ continuing => (List.not_mem_nil continuing).elim

theorem Nonterminal.Ends.mono {n : Nonterminal} (m : Nonterminal) {rest : List Token}
    (ends : n.Ends rest) (less : m.continuing ⊆ n.continuing) : m.Ends rest :=
  fun t mem op continuing => ends t mem op (less continuing)

namespace Derivation

open Nonterminal

theorem atom_tokens_ne_operator (d : Derivation .atom) (rest : List Token) :
    ∃ t more, d.tokens ++ rest = t :: more ∧ ∀ op, t.kind ≠ .operator op := by
  cases d with
  | literal t e isLiteral =>
    refine ⟨t, rest, rfl, ?_⟩
    intro op same
    have kind := isLiteral.kind
    simp [same] at kind
  | group opening isOpening inner closing isClosing =>
    exact ⟨opening, _, rfl, by simp [isOpening]⟩
  | call t f isFunction opening isOpening inner closing isClosing =>
    exact ⟨t, _, rfl, by simp [isFunction]⟩

theorem power_tokens_ne_operator (d : Derivation .power) (rest : List Token) :
    ∃ t more, d.tokens ++ rest = t :: more ∧ ∀ op, t.kind ≠ .operator op := by
  cases d with
  | base operand => exact operand.atom_tokens_ne_operator rest
  | raised left t isCaret exponent =>
    obtain ⟨first, more, begins, noOperator⟩ :=
      left.atom_tokens_ne_operator (t :: (exponent.tokens ++ rest))
    exact ⟨first, more, (List.append_assoc ..).trans begins, noOperator⟩

theorem ends_terms (d : Derivation .terms) {rest : List Token} (ends : Ends .sum rest) :
    Ends .product (d.tokens ++ rest) := by
  cases d with
  | noTerm => exact ends.mono .product (by decide)
  | term t op isOperator level operand more =>
    apply ends_cons.mpr
    intro other mem same
    obtain rfl : op = other := by simpa [isOperator] using same
    rcases level with rfl | rfl <;> exact absurd mem (by decide)

theorem ends_factors (d : Derivation .factors) {rest : List Token} (ends : Ends .product rest) :
    Ends .unary (d.tokens ++ rest) := by
  cases d with
  | noFactor => exact ends.mono .unary (by decide)
  | factor t op isOperator level operand more =>
    apply ends_cons.mpr
    intro other mem same
    obtain rfl : op = other := by simpa [isOperator] using same
    rcases level with rfl | rfl <;> exact absurd mem (by decide)

theorem ends_closing (n : Nonterminal) {closing : Token} (isClosing : closing.kind = .closing)
    (rest : List Token) : n.Ends (closing :: rest) :=
  ends_cons.mpr fun op _ same => by simp [isClosing] at same

/-- Derivations of the same phrase whose tokens agree up to where the phrases end are equal. -/
theorem eq_of_tokens {n : Nonterminal} (d d' : Derivation n) {rest rest' : List Token}
    (ends : n.Ends rest) (ends' : n.Ends rest')
    (same : d.tokens ++ rest = d'.tokens ++ rest') : d = d' ∧ rest = rest' := by
  induction d generalizing rest rest' with
  | sum first terms ihFirst ihTerms =>
    cases d' with
    | sum first' terms' =>
      simp only [tokens, List.append_assoc] at same
      obtain ⟨rfl, more⟩ := ihFirst first' (terms.ends_terms ends) (terms'.ends_terms ends') same
      obtain ⟨rfl, rfl⟩ := ihTerms terms' ends ends' more
      exact ⟨rfl, rfl⟩
  | noTerm =>
    cases d' with
    | noTerm => exact ⟨rfl, same⟩
    | term t op isOperator level operand more =>
      simp only [tokens, List.nil_append, List.cons_append] at same
      subst same
      exact (ends_cons.mp ends op (by rcases level with rfl | rfl <;> decide) isOperator).elim
  | term t op isOperator level operand terms ihOperand ihTerms =>
    cases d' with
    | noTerm =>
      simp only [tokens, List.nil_append, List.cons_append] at same
      subst same
      exact (ends_cons.mp ends' op (by rcases level with rfl | rfl <;> decide) isOperator).elim
    | term t' op' isOperator' level' operand' terms' =>
      simp only [tokens, List.cons_append, List.append_assoc] at same
      obtain ⟨rfl, more⟩ := List.cons.inj same
      obtain rfl : op = op' := by simpa [isOperator] using isOperator'
      obtain ⟨rfl, later⟩ :=
        ihOperand operand' (terms.ends_terms ends) (terms'.ends_terms ends') more
      obtain ⟨rfl, rfl⟩ := ihTerms terms' ends ends' later
      exact ⟨rfl, rfl⟩
  | product first factors ihFirst ihFactors =>
    cases d' with
    | product first' factors' =>
      simp only [tokens, List.append_assoc] at same
      obtain ⟨rfl, more⟩ :=
        ihFirst first' (factors.ends_factors ends) (factors'.ends_factors ends') same
      obtain ⟨rfl, rfl⟩ := ihFactors factors' ends ends' more
      exact ⟨rfl, rfl⟩
  | noFactor =>
    cases d' with
    | noFactor => exact ⟨rfl, same⟩
    | factor t op isOperator level operand more =>
      simp only [tokens, List.nil_append, List.cons_append] at same
      subst same
      exact (ends_cons.mp ends op (by rcases level with rfl | rfl <;> decide) isOperator).elim
  | factor t op isOperator level operand factors ihOperand ihFactors =>
    cases d' with
    | noFactor =>
      simp only [tokens, List.nil_append, List.cons_append] at same
      subst same
      exact (ends_cons.mp ends' op (by rcases level with rfl | rfl <;> decide) isOperator).elim
    | factor t' op' isOperator' level' operand' factors' =>
      simp only [tokens, List.cons_append, List.append_assoc] at same
      obtain ⟨rfl, more⟩ := List.cons.inj same
      obtain rfl : op = op' := by simpa [isOperator] using isOperator'
      obtain ⟨rfl, later⟩ :=
        ihOperand operand' (factors.ends_factors ends) (factors'.ends_factors ends') more
      obtain ⟨rfl, rfl⟩ := ihFactors factors' ends ends' later
      exact ⟨rfl, rfl⟩
  | negative t isMinus operand ih =>
    cases d' with
    | negative t' isMinus' operand' =>
      obtain ⟨rfl, more⟩ := List.cons.inj same
      obtain ⟨rfl, rfl⟩ := ih operand' ends ends' more
      exact ⟨rfl, rfl⟩
    | unsigned operand' =>
      obtain ⟨first, more, begins, noOperator⟩ := operand'.power_tokens_ne_operator rest'
      obtain ⟨rfl, -⟩ := List.cons.inj (same.trans begins)
      exact (noOperator _ isMinus).elim
  | unsigned operand ih =>
    cases d' with
    | negative t' isMinus' operand' =>
      obtain ⟨first, more, begins, noOperator⟩ := operand.power_tokens_ne_operator rest
      obtain ⟨rfl, -⟩ := List.cons.inj (same.symm.trans begins)
      exact (noOperator _ isMinus').elim
    | unsigned operand' =>
      obtain ⟨rfl, rfl⟩ := ih operand' ends ends' same
      exact ⟨rfl, rfl⟩
  | base operand ih =>
    cases d' with
    | base operand' =>
      obtain ⟨rfl, rfl⟩ := ih operand' (ends_atom _) (ends_atom _) same
      exact ⟨rfl, rfl⟩
    | raised left' t' isCaret' exponent' =>
      simp only [tokens, List.append_assoc, List.cons_append] at same
      obtain ⟨rfl, rfl⟩ := ih left' (ends_atom _) (ends_atom _) same
      exact (ends_cons.mp ends .pow (by decide) isCaret').elim
  | raised left t isCaret exponent ihLeft ihExponent =>
    cases d' with
    | base operand' =>
      simp only [tokens, List.append_assoc, List.cons_append] at same
      obtain ⟨rfl, rfl⟩ := ihLeft operand' (ends_atom _) (ends_atom _) same
      exact (ends_cons.mp ends' .pow (by decide) isCaret).elim
    | raised left' t' isCaret' exponent' =>
      simp only [tokens, List.append_assoc, List.cons_append] at same
      obtain ⟨rfl, more⟩ := ihLeft left' (ends_atom _) (ends_atom _) same
      obtain ⟨rfl, later⟩ := List.cons.inj more
      obtain ⟨rfl, rfl⟩ := ihExponent exponent' ends ends' later
      exact ⟨rfl, rfl⟩
  | literal t e isLiteral =>
    cases d' with
    | literal t' e' isLiteral' =>
      obtain ⟨rfl, rfl⟩ := List.cons.inj same
      obtain rfl := isLiteral.unique isLiteral'
      exact ⟨rfl, rfl⟩
    | group opening' isOpening' inner' closing' isClosing' =>
      obtain ⟨rfl, -⟩ := List.cons.inj same
      exact (isLiteral.not_opening isOpening').elim
    | call t' f' isFunction' opening' isOpening' inner' closing' isClosing' =>
      obtain ⟨rfl, -⟩ := List.cons.inj same
      exact (isLiteral.not_function isFunction').elim
  | group opening isOpening inner closing isClosing ih =>
    cases d' with
    | literal t' e' isLiteral' =>
      obtain ⟨rfl, -⟩ := List.cons.inj same
      exact (isLiteral'.not_opening isOpening).elim
    | group opening' isOpening' inner' closing' isClosing' =>
      simp only [tokens, List.cons_append, List.append_assoc, List.nil_append] at same
      obtain ⟨rfl, more⟩ := List.cons.inj same
      obtain ⟨rfl, later⟩ :=
        ih inner' (ends_closing .sum isClosing _) (ends_closing .sum isClosing' _) more
      obtain ⟨rfl, rfl⟩ := List.cons.inj later
      exact ⟨rfl, rfl⟩
    | call t' f' isFunction' opening' isOpening' inner' closing' isClosing' =>
      obtain ⟨rfl, -⟩ := List.cons.inj same
      simp [isOpening] at isFunction'
  | call t f isFunction opening isOpening inner closing isClosing ih =>
    cases d' with
    | literal t' e' isLiteral' =>
      obtain ⟨rfl, -⟩ := List.cons.inj same
      exact (isLiteral'.not_function isFunction).elim
    | group opening' isOpening' inner' closing' isClosing' =>
      obtain ⟨rfl, -⟩ := List.cons.inj same
      simp [isFunction] at isOpening'
    | call t' f' isFunction' opening' isOpening' inner' closing' isClosing' =>
      simp only [tokens, List.cons_append, List.append_assoc, List.nil_append] at same
      obtain ⟨rfl, called⟩ := List.cons.inj same
      obtain ⟨rfl, more⟩ := List.cons.inj called
      obtain rfl : f = f' := by simpa [isFunction] using isFunction'
      obtain ⟨rfl, later⟩ :=
        ih inner' (ends_closing .sum isClosing _) (ends_closing .sum isClosing' _) more
      obtain ⟨rfl, rfl⟩ := List.cons.inj later
      exact ⟨rfl, rfl⟩

theorem tokens_injective {n : Nonterminal} {d d' : Derivation n} (same : d.tokens = d'.tokens) :
    d = d' :=
  (eq_of_tokens d d' n.ends_nil n.ends_nil (congrArg (· ++ []) same)).1

end Derivation

end Formula
