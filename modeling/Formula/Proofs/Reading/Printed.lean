import Formula.Proofs.Expr.Reread
import Formula.Proofs.Grammar.Completeness
import Formula.Proofs.Token.Segmentation

/-!
Reading the text of a tree. Main statement: the tree that comes back is `Expr.reread`, under every
limit that the nesting of the text does not exceed.
-/

namespace Formula

open Text

namespace Derivation

/-- Minus signs before a power. -/
def signed : (signs : List Token) → (∀ s ∈ signs, s.kind = .operator .sub) → Derivation .power →
    Derivation .unary
  | [], _, operand => .unsigned operand
  | s :: signs, minus, operand =>
    .negative s (minus s (by simp)) (signed signs (fun u mem => minus u (by simp [mem])) operand)

variable {signs : List Token} (minus : ∀ s ∈ signs, s.kind = .operator .sub)
  (operand : Derivation .power)

theorem signed_tokens : (signed signs minus operand).tokens = signs ++ operand.tokens := by
  induction signs with
  | nil => rfl
  | cons s signs ih => simp only [signed, tokens, ih, List.cons_append]

theorem signed_tree :
    (signed signs minus operand).tree = Item.negate signs.length operand.tree := by
  induction signs with
  | nil => rfl
  | cons s signs ih => simp only [signed, tree, ih, List.length_cons, Item.negate_succ]

include minus in
/-- An operation between two signed atoms is a sum. -/
theorem exists_operation {op : BinaryOp} {t : Token} (isOperator : t.kind = .operator op)
    (left : Derivation .atom) (right : Derivation .unary) :
    ∃ d : Derivation .sum, d.tokens = signs ++ left.tokens ++ t :: right.tokens ∧
      d.tree = Expr.operation op signs.length left.tree right.tree := by
  have additive (level : op = .add ∨ op = .sub) :
      ∃ d : Derivation .sum, d.tokens = signs ++ left.tokens ++ t :: right.tokens ∧
        d.tree = .binary op (Item.negate signs.length left.tree) right.tree :=
    ⟨.sum (.product (signed signs minus (.base left)) .noFactor)
      (.term t op isOperator level (.product right .noFactor) .noTerm),
      by simp [tokens, signed_tokens], by simp [tree, signed_tree]⟩
  have multiplicative (level : op = .mul ∨ op = .div) :
      ∃ d : Derivation .sum, d.tokens = signs ++ left.tokens ++ t :: right.tokens ∧
        d.tree = .binary op (Item.negate signs.length left.tree) right.tree :=
    ⟨.sum (.product (signed signs minus (.base left))
      (.factor t op isOperator level right .noFactor)) .noTerm,
      by simp [tokens, signed_tokens], by simp [tree, signed_tree]⟩
  cases op with
  | add => exact additive (.inl rfl)
  | sub => exact additive (.inr rfl)
  | mul => exact multiplicative (.inl rfl)
  | div => exact multiplicative (.inr rfl)
  | pow =>
    exact ⟨.sum (.product (signed signs minus (.raised left t isOperator right)) .noFactor) .noTerm,
      by simp [tokens, signed_tokens], by simp [tree, signed_tree, Expr.operation]⟩

end Derivation

/-- The sign of an operator is one character. -/
theorem BinaryOp.exists_symbol (op : BinaryOp) :
    ∃ c, op.symbol.toList = [c] ∧ Kind.ofSymbol? c = some (.operator op) := by
  cases op <;> exact ⟨_, rfl, rfl⟩

theorem Elementary.ofWord_name (f : Elementary) : Kind.ofWord f.name = .function f := by
  cases f <;> rfl

theorem Elementary.isLetter_name (f : Elementary) :
    f.name.toList ≠ [] ∧ ∀ c ∈ f.name.toList, isLetter c := by
  cases f <;> exact ⟨by decide, List.all_eq_true.mp rfl⟩

namespace Token

theorem apart_blank_cons (before rest : List Char) : Apart before (' ' :: rest) :=
  apart_cons (by decide) (by decide) before rest

theorem apart_closing (before rest : List Char) : Apart before (')' :: rest) :=
  apart_cons (by decide) (by decide) before rest

theorem ofChars_letters (pos : Nat) (word : String) (nonempty : word.toList ≠ [])
    (letters : ∀ c ∈ word.toList, isLetter c) :
    ofChars pos word.toList = .ok [⟨.ofWord word, word, none, pos⟩] := by
  have stretch : Stretch isLetter [] word.toList [] := ⟨nonempty, letters, by simp, by simp⟩
  have read := ofChars_word pos stretch
  rw [List.append_nil, String.ofList_toList] at read
  exact read

theorem ofChars_numerals (pos : Nat) {run : List Char} {x : Number} (nonempty : run ≠ [])
    (numerals : ∀ c ∈ run, isNumeral c) (value : Number.ofText? run = some x) :
    ofChars pos run = .ok [⟨.number, String.ofList run, some x, pos⟩] := by
  have stretch : Stretch isNumeral [] run [] := ⟨nonempty, numerals, by simp, by simp⟩
  have read := ofChars_number pos stretch value
  rw [List.append_nil] at read
  exact read

/-- The tokens of an operation in parentheses. -/
theorem ofChars_operation {pos : Nat} {op : BinaryOp} {c : Char} {left right : List Char}
    {ls rs : List Token} (symbol : Kind.ofSymbol? c = some (.operator op))
    (readLeft : ofChars (pos + 1) left = .ok ls)
    (readRight : ofChars (pos + 1 + left.length + 1 + 1 + 1) right = .ok rs) :
    ∃ opening t closing : Token, opening.kind = .opening ∧ t.kind = .operator op ∧
      closing.kind = .closing ∧
        ofChars pos ('(' :: (left ++ ' ' :: c :: ' ' :: (right ++ [')']))) =
          .ok (opening :: ((ls ++ t :: rs) ++ [closing])) := by
  refine ⟨⟨.opening, String.ofList ['('], none, pos⟩,
    ⟨.operator op, String.ofList [c], none, (pos + 1 + left.length + 1 : Nat)⟩,
    ⟨.closing, String.ofList [')'], none,
      (pos + 1 + left.length + 1 + 1 + 1 + right.length : Nat)⟩, rfl, rfl, rfl, ?_⟩
  rw [ofChars_symbol _ rfl, ofChars_append (apart_blank_cons _ _) readLeft,
    ofChars_blank _ (by decide), ofChars_symbol _ symbol,
    ofChars_blank _ (by decide), ofChars_append (apart_closing _ _) readRight,
    ofChars_symbol _ rfl, ofChars_nil]
  simp [Functor.map, Except.map]

/-- The tokens of a call. -/
theorem ofChars_call {pos : Nat} {f : Elementary} {operand : List Char} {tokens : List Token}
    (read : ofChars (pos + f.name.toList.length + 1) operand = .ok tokens) :
    ∃ t opening closing : Token, t.kind = .function f ∧ opening.kind = .opening ∧
      closing.kind = .closing ∧
        ofChars pos (f.name.toList ++ '(' :: (operand ++ [')'])) =
          .ok (t :: opening :: (tokens ++ [closing])) := by
  refine ⟨⟨.ofWord f.name, f.name, none, pos⟩,
    ⟨.opening, String.ofList ['('], none, (pos + f.name.toList.length : Nat)⟩,
    ⟨.closing, String.ofList [')'], none,
      (pos + f.name.toList.length + 1 + operand.length : Nat)⟩, f.ofWord_name, rfl, rfl, ?_⟩
  obtain ⟨nonempty, letters⟩ := f.isLetter_name
  have apart : Apart f.name.toList ('(' :: (operand ++ [')'])) :=
    apart_cons (by decide) (by decide) _ _
  rw [ofChars_append apart (ofChars_letters pos f.name nonempty letters), ofChars_symbol _ rfl,
    ofChars_append (apart_closing _ _) read, ofChars_symbol _ rfl, ofChars_nil]
  simp [Functor.map, Except.map]

end Token

namespace Expr

/-- Every number and every name of the tree is written as a single token. -/
structure Plain (t : Expr) : Prop where
  noExp : ∀ x, .unary .exp x ∉ t.nodes
  names : ∀ name, .var name ∈ t.nodes →
    name.toList ≠ [] ∧ (∀ c ∈ name.toList, isLetter c) ∧ name ∉ Kind.keywords
  numbers : ∀ x, .number x ∈ t.nodes →
    x.toChars ≠ [] ∧ (∀ c ∈ x.toChars, isNumeral c) ∧ ∃ y, Number.ofText? x.toChars = some y

theorem Plain.of_subset {s t : Expr} (plain : t.Plain) (part : s.nodes ⊆ t.nodes) : s.Plain where
  noExp x mem := plain.noExp x (part mem)
  names name mem := plain.names name (part mem)
  numbers x mem := plain.numbers x (part mem)

theorem toList_number (x : Number) : (number x).text.toList = x.toChars := String.toList_ofList

theorem toList_binary (op : BinaryOp) (left right : Expr) :
    (binary op left right).text.toList = '(' :: (left.text.toList ++
      ' ' :: (op.symbol.toList ++ ' ' :: (right.text.toList ++ [')']))) := by
  simp [text_binary]

theorem toList_negation (operand : Expr) :
    (unary .neg operand).text.toList = '-' :: operand.text.toList := by
  simp [text_negation]

theorem depth_pos (t : Expr) : 1 ≤ t.depth := by
  cases t with
  | binary op left right => simp
  | unary op operand => simp
  | _ => exact Nat.le_refl 1

/-- The tokens of a tree's text are minus signs and an atom. -/
structure PrintedAs (t : Expr) (pos : Nat) (signs : List Token) (atom : Derivation .atom) :
    Prop where
  read : Token.ofChars pos t.text.toList = .ok (signs ++ atom.tokens)
  minus : ∀ s ∈ signs, s.kind = .operator .sub
  count : signs.length = t.signs
  tree : atom.tree = t.core
  height : Token.nesting (signs ++ atom.tokens) < t.depth

variable {t : Expr} {pos : Nat} {signs : List Token} {atom : Derivation .atom}

theorem PrintedAs.exists_unary (printed : t.PrintedAs pos signs atom) :
    ∃ d : Derivation .unary, d.tokens = signs ++ atom.tokens ∧ d.tree = t.reread :=
  ⟨.signed signs printed.minus (.base atom), Derivation.signed_tokens printed.minus _, by
    rw [Derivation.signed_tree printed.minus, printed.count, reread, ← printed.tree]
    rfl⟩

theorem printedAs_literal {token : Token} (isLiteral : token.Literal t.core)
    (read : Token.ofChars pos t.text.toList = .ok [token]) (unsigned : t.signs = 0) :
    t.PrintedAs pos [] (.literal token t.core isLiteral) where
  read := read
  minus := by simp
  count := unsigned.symm
  tree := rfl
  height := by
    have := t.depth_pos
    rw [List.nil_append, Derivation.tokens, Token.nesting_plain isLiteral.level, Token.nesting_nil]
    omega

theorem PrintedAs.negative (printed : t.PrintedAs (pos + 1) signs atom) :
    (unary .neg t).PrintedAs pos
      (⟨.operator .sub, String.ofList ['-'], none, pos⟩ :: signs) atom where
  read := by
    rw [toList_negation, Token.ofChars_symbol pos rfl, printed.read]
    rfl
  minus := by simpa using printed.minus
  count := by simp [printed.count, Expr.signs]
  tree := printed.tree
  height := by
    have := printed.height
    rw [List.cons_append, Token.nesting_plain rfl, depth_unary]
    omega

theorem PrintedAs.call {f : Elementary}
    (printed : t.PrintedAs (pos + f.name.toList.length + 1) signs atom) :
    ∃ call, (unary (.apply f) t).PrintedAs pos [] call := by
  obtain ⟨operand, tokens, tree⟩ := printed.exists_unary
  have innerTokens : (Derivation.single operand).tokens = signs ++ atom.tokens :=
    operand.single_tokens.trans tokens
  obtain ⟨function, opening, closing, isFunction, isOpening, isClosing, read⟩ :=
    Token.ofChars_call printed.read
  refine ⟨.call function f isFunction opening isOpening (.single operand) closing isClosing, ?_,
    by simp, rfl, ?_, ?_⟩
  · have text : (unary (.apply f) t).text.toList =
        f.name.toList ++ '(' :: (t.text.toList ++ [')']) := by
      simp [text_call, UnaryOp.symbol]
    rw [text, read, List.nil_append, Derivation.tokens, innerTokens]
  · simp [Derivation.tree, tree, core, reread]
  · have := printed.height
    rw [List.nil_append, Derivation.tokens,
      Token.nesting_plain (Token.level_of_function isFunction),
      Token.nesting_group isOpening isClosing (Derivation.single operand).balanced, innerTokens,
      Token.nesting_nil, depth_unary]
    omega

theorem PrintedAs.operation {op : BinaryOp} {right : Expr} {signs' : List Token}
    {atom' : Derivation .atom} (printed : t.PrintedAs (pos + 1) signs atom)
    (printed' : right.PrintedAs (pos + 1 + t.text.toList.length + 1 + 1 + 1) signs' atom') :
    ∃ group, (binary op t right).PrintedAs pos [] group := by
  obtain ⟨operand, tokens, _⟩ := printed.exists_unary
  obtain ⟨operand', tokens', tree'⟩ := printed'.exists_unary
  obtain ⟨c, sign, symbol⟩ := op.exists_symbol
  obtain ⟨opening, operator, closing, isOpening, isOperator, isClosing, read⟩ :=
    Token.ofChars_operation symbol printed.read printed'.read
  obtain ⟨inner, innerTokens, innerTree⟩ :=
    Derivation.exists_operation printed.minus isOperator atom operand'
  refine ⟨.group opening isOpening inner closing isClosing, ?_, by simp, rfl, ?_, ?_⟩
  · rw [toList_binary, sign, List.singleton_append, read, List.nil_append, Derivation.tokens,
      innerTokens, tokens']
  · rw [Derivation.tree, innerTree, printed.count, printed.tree, tree']
    rfl
  · have := printed.height
    have := printed'.height
    rw [List.nil_append, Derivation.tokens, Token.nesting_group isOpening isClosing inner.balanced,
      innerTokens, ← tokens, operand.balanced.nesting_append,
      Token.nesting_plain (Token.level_of_operator isOperator), tokens, tokens',
      Token.nesting_nil, depth_binary]
    omega

theorem Plain.exists_printedAs (plain : t.Plain) (pos : Nat) :
    ∃ signs atom, t.PrintedAs pos signs atom := by
  induction t generalizing pos with
  | number x =>
    obtain ⟨nonempty, numerals, y, value⟩ := plain.numbers x (self_mem_nodes _)
    have leaf : (number x).core = .number y := by simp [core, value]
    have read := Token.ofChars_numerals pos nonempty numerals value
    rw [← toList_number] at read
    exact ⟨[], _, printedAs_literal (leaf ▸ .number rfl rfl) read rfl⟩
  | var name =>
    obtain ⟨nonempty, letters, noKeyword⟩ := plain.names name (self_mem_nodes _)
    have isName := (Kind.ofWord_keyword name).1.mpr noKeyword
    have read := Token.ofChars_letters pos name nonempty letters
    exact ⟨[], _, printedAs_literal (.name isName) read rfl⟩
  | pi =>
    have read := Token.ofChars_letters pos "pi" (by decide) (List.all_eq_true.mp rfl)
    exact ⟨[], _, printedAs_literal (.pi rfl) read rfl⟩
  | euler =>
    have read := Token.ofChars_letters pos "e" (by decide) (List.all_eq_true.mp rfl)
    exact ⟨[], _, printedAs_literal (.euler rfl) read rfl⟩
  | binary op left right ihLeft ihRight =>
    obtain ⟨_, _, printed⟩ := ihLeft (plain.of_subset (nodes_left _ _ _)) (pos + 1)
    obtain ⟨_, _, printed'⟩ := ihRight (plain.of_subset (nodes_right _ _ _))
      (pos + 1 + left.text.toList.length + 1 + 1 + 1)
    exact ⟨[], printed.operation printed'⟩
  | unary op operand ih =>
    have inner := plain.of_subset (nodes_operand op operand)
    cases op with
    | neg =>
      obtain ⟨_, _, printed⟩ := ih inner (pos + 1)
      exact ⟨_, _, printed.negative⟩
    | exp => exact absurd (self_mem_nodes _) (plain.noExp operand)
    | apply f =>
      obtain ⟨_, _, printed⟩ := ih inner (pos + f.name.toList.length + 1)
      exact ⟨[], printed.call⟩

/-- The text of a plain tree is read, under every limit that its nesting does not exceed. -/
theorem Plain.ofText_text (plain : t.Plain) :
    ∃ tokens, Token.ofText t.text = .ok tokens ∧ Token.nesting tokens < t.depth ∧
      ∀ limit, Token.nesting tokens ≤ limit →
        ofText limit t.text = .ok t.reread.exponentialForm := by
  obtain ⟨signs, atom, printed⟩ := plain.exists_printedAs 0
  obtain ⟨operand, tokens, tree⟩ := printed.exists_unary
  let d := Derivation.single operand
  have same : d.tokens = signs ++ atom.tokens := operand.single_tokens.trans tokens
  have read : Token.ofText t.text = .ok d.tokens := by rw [same, Token.ofText_eq, printed.read]
  refine ⟨d.tokens, read, same ▸ printed.height, fun limit enough => ?_⟩
  rw [ofText, read]
  rw [← tree, ← operand.single_tree]
  exact d.ofTokens_tokens enough

end Expr

end Formula
