import Mathlib.Data.List.Forall2
import Formula.Proofs.Expr.Written
import Formula.Proofs.Grammar.Soundness

/-!
Reading loses, duplicates and reorders nothing: apart from its parentheses, a list of tokens is
what the tree that is read from it is written as.
-/

namespace Formula

/-- A token is the mark that a tree is written with. -/
inductive Token.Writes (t : Token) : Mark → Prop where
  | leaf {e : Expr} (isLiteral : t.Literal e) : Writes t (.leaf e)
  | operator {op : BinaryOp} (isOperator : t.kind = .operator op) : Writes t (.operator op)
  | function {f : Elementary} (isFunction : t.kind = .function f) : Writes t (.function f)

/-- The mark that all tokens of a kind are written as, where it is the same for all of them. -/
def Kind.mark? : Kind → Option Mark
  | .operator op => some (.operator op)
  | .function f => some (.function f)
  | .euler => some (.leaf .euler)
  | _ => none

namespace Token

/-- The tokens other than parentheses. -/
def plain (ts : List Token) : List Token := ts.filter (·.level == 0)

@[simp]
theorem plain_append (ts us : List Token) : plain (ts ++ us) = plain ts ++ plain us :=
  List.filter_append ts us

theorem plain_cons {t : Token} (level : t.level = 0) (ts : List Token) :
    plain (t :: ts) = t :: plain ts := by
  simp [plain, level]

theorem plain_group {opening closing : Token} (isOpening : opening.kind = .opening)
    (isClosing : closing.kind = .closing) (contents : List Token) :
    plain (opening :: (contents ++ [closing])) = plain contents := by
  simp [plain, level_of_opening isOpening, level_of_closing isClosing]

/-- How many tokens are of a kind. -/
def count (kind : Kind) (ts : List Token) : Nat := ts.countP (·.kind == kind)

theorem length_plain (ts : List Token) :
    (plain ts).length + (count .opening ts + count .closing ts) = ts.length := by
  simp only [plain, count]
  induction ts with
  | nil => rfl
  | cons t ts ih =>
    simp only [List.filter_cons, List.countP_cons, List.length_cons, ← ih]
    cases kind : t.kind <;> simp [level, kind] <;> omega

theorem Writes.kind_iff {t : Token} {m mark : Mark} {kind : Kind} (writes : t.Writes m)
    (fixed : kind.mark? = some mark) : t.kind = kind ↔ m = mark := by
  cases writes with
  | leaf isLiteral => cases isLiteral <;> cases kind <;> cases fixed <;> simp_all
  | operator isOperator => cases kind <;> cases fixed <;> simp_all
  | function isFunction => cases kind <;> cases fixed <;> simp_all

theorem Writes.kind_operand {t : Token} {m : Mark} (writes : t.Writes m) :
    t.kind ∈ [.number, .name, .pi] ↔ m.isOperand = true := by
  cases writes with
  | leaf isLiteral => cases isLiteral <;> simp_all [Mark.isOperand]
  | operator isOperator => simp [isOperator, Mark.isOperand]
  | function isFunction => simp [isFunction, Mark.isOperand]

section Written

variable {ts : List Token} {marks : List Mark} (written : List.Forall₂ Writes (plain ts) marks)

include written

/-- Tokens and marks that are chosen in the same way still belong together. -/
theorem filter_written {p : Token → Bool} {q : Mark → Bool}
    (agree : ∀ ⦃t m⦄, Writes t m → (p t ↔ q m)) (noParenthesis : ∀ t, p t → t.level = 0) :
    List.Forall₂ Writes (ts.filter p) (marks.filter q) := by
  have chosen : (plain ts).filter p = ts.filter p := by
    rw [plain, List.filter_filter]
    apply List.filter_congr
    intro t _
    cases holds : p t with
    | false => rfl
    | true => simp [noParenthesis t holds]
  rw [← chosen]
  exact List.rel_filter agree written

theorem count_written {kind : Kind} {mark : Mark} (fixed : kind.mark? = some mark) :
    count kind ts = marks.count mark := by
  have agree ⦃t : Token⦄ ⦃m : Mark⦄ (writes : t.Writes m) :
      (t.kind == kind) = true ↔ (m == mark) = true := by
    rw [beq_iff_eq, beq_iff_eq]
    exact writes.kind_iff fixed
  have noParenthesis (t : Token) (same : (t.kind == kind) = true) : t.level = 0 := by
    obtain rfl : t.kind = kind := beq_iff_eq.mp same
    apply level_eq_zero.mpr
    constructor <;> intro parenthesis <;> simp [parenthesis, Kind.mark?] at fixed
  have chosen := filter_written written agree noParenthesis
  rw [count, List.count, List.countP_eq_length_filter, List.countP_eq_length_filter]
  exact chosen.length_eq

theorem operands_written :
    List.Forall₂ Writes (ts.filter (·.kind ∈ [.number, .name, .pi]))
      (marks.filter Mark.isOperand) := by
  have agree ⦃t : Token⦄ ⦃m : Mark⦄ (writes : t.Writes m) :
      decide (t.kind ∈ [.number, .name, .pi]) = true ↔ m.isOperand = true := by
    rw [decide_eq_true_iff]
    exact writes.kind_operand
  have noParenthesis (t : Token) (mem : decide (t.kind ∈ [.number, .name, .pi]) = true) :
      t.level = 0 := by
    apply level_eq_zero.mpr
    constructor <;> intro parenthesis <;> simp [parenthesis] at mem
  exact filter_written written agree noParenthesis

end Written

end Token

/-- A phrase is written with these tokens; a repetition adds them to what is before it. -/
def Nonterminal.Written : (n : Nonterminal) → n.Value → List Token → Prop
  | .terms, extend, ts => ∃ marks, List.Forall₂ Token.Writes ts marks ∧
      ∀ left : Expr, (extend left).written = left.written ++ marks
  | .factors, extend, ts => ∃ marks, List.Forall₂ Token.Writes ts marks ∧
      ∀ left : Expr, (extend left).written = left.written ++ marks
  | .sum, e, ts => List.Forall₂ Token.Writes ts e.written
  | .product, e, ts => List.Forall₂ Token.Writes ts e.written
  | .unary, e, ts => List.Forall₂ Token.Writes ts e.written
  | .power, e, ts => List.Forall₂ Token.Writes ts e.written
  | .atom, e, ts => List.Forall₂ Token.Writes ts e.written

theorem Derivation.written {n : Nonterminal} (d : Derivation n) :
    n.Written d.tree (Token.plain d.tokens) := by
  induction d with
  | sum first rest ihFirst ihRest =>
    obtain ⟨marks, behind, extended⟩ := ihRest
    simp only [Nonterminal.Written, tokens, tree, Token.plain_append, extended]
    exact List.rel_append ihFirst behind
  | noTerm => exact ⟨[], .nil, fun left => (List.append_nil _).symm⟩
  | term t op isOperator level operand rest ihOperand ihRest =>
    obtain ⟨marks, behind, extended⟩ := ihRest
    have plain := Token.level_of_operator isOperator
    refine ⟨.operator op :: (operand.tree.written ++ marks), ?_, ?_⟩
    · rw [tokens, Token.plain_cons plain, Token.plain_append]
      exact .cons (.operator isOperator) (List.rel_append ihOperand behind)
    · intro left
      simp [tree, extended, Expr.written]
  | product first rest ihFirst ihRest =>
    obtain ⟨marks, behind, extended⟩ := ihRest
    simp only [Nonterminal.Written, tokens, tree, Token.plain_append, extended]
    exact List.rel_append ihFirst behind
  | noFactor => exact ⟨[], .nil, fun left => (List.append_nil _).symm⟩
  | factor t op isOperator level operand rest ihOperand ihRest =>
    obtain ⟨marks, behind, extended⟩ := ihRest
    have plain := Token.level_of_operator isOperator
    refine ⟨.operator op :: (operand.tree.written ++ marks), ?_, ?_⟩
    · rw [tokens, Token.plain_cons plain, Token.plain_append]
      exact .cons (.operator isOperator) (List.rel_append ihOperand behind)
    · intro left
      simp [tree, extended, Expr.written]
  | negative t isMinus operand ih =>
    rw [tokens, Token.plain_cons (Token.level_of_operator isMinus)]
    exact .cons (.operator isMinus) ih
  | unsigned operand ih => exact ih
  | base operand ih => exact ih
  | raised left t isCaret exponent ihLeft ihExponent =>
    rw [tokens, Token.plain_append, Token.plain_cons (Token.level_of_operator isCaret)]
    exact List.rel_append ihLeft (.cons (.operator isCaret) ihExponent)
  | literal t e isLiteral =>
    have single : e.written = [.leaf e] := by cases isLiteral <;> rfl
    rw [tokens, Token.plain_cons isLiteral.level]
    show List.Forall₂ Token.Writes [t] e.written
    rw [single]
    exact .cons (.leaf isLiteral) .nil
  | group opening isOpening inner closing isClosing ih =>
    rw [tokens, Token.plain_group isOpening isClosing]
    exact ih
  | call t f isFunction opening isOpening inner closing isClosing ih =>
    rw [tokens, Token.plain_cons (Token.level_of_function isFunction),
      Token.plain_group isOpening isClosing]
    exact .cons (.function isFunction) ih

namespace Expr

open Outcome

variable {limit : Int} {tokens : List Token} {e : Expr}

theorem written_of_ofTokens (read : ofTokens limit tokens = .ok e) :
    List.Forall₂ Token.Writes (Token.plain tokens) e.written := by
  obtain ⟨d, rfl, rfl⟩ := derivation_of_ofTokens read
  rw [written_exponentialForm]
  exact d.written

/-- The leaves other than e are what the tokens for numbers, names and pi stand for, in order; the
tokens of every other kind are as many as the nodes that they are read as. -/
theorem ofTokens_content (read : ofTokens limit tokens = .ok e) :
    List.Forall₂ Token.Literal (tokens.filter (·.kind ∈ [.number, .name, .pi]))
      (e.leaves.filter (· != .euler)) ∧
    Token.count .euler tokens = e.leaves.count .euler + e.unaries .exp ∧
    (∀ op ∈ [BinaryOp.add, .mul, .div], Token.count (.operator op) tokens = e.binaries op) ∧
    (∀ f, Token.count (.function f) tokens = e.unaries (.apply f)) ∧
    Token.count (.operator .sub) tokens = e.binaries .sub + e.unaries .neg ∧
    Token.count (.operator .pow) tokens = e.binaries .pow + e.unaries .exp ∧
    e.size + e.unaries .exp + (Token.count .opening tokens + Token.count .closing tokens) =
      tokens.length := by
  have written := written_of_ofTokens read
  have operators (op : BinaryOp) :
      Token.count (.operator op) tokens = e.written.count (.operator op) :=
    Token.count_written written rfl
  refine ⟨?_, ?_, ?_, ?_, ?_, ?_, ?_⟩
  · have operands := Token.operands_written written
    rw [filter_written, List.forall₂_map_right_iff] at operands
    apply operands.imp
    rintro t leaf ⟨isLiteral⟩
    exact isLiteral
  · rw [Token.count_written written rfl, count_euler_written]
  · intro op mem
    rw [operators, count_operator_written]
    rcases List.mem_cons.mp mem with rfl | mem
    · rfl
    rcases List.mem_cons.mp mem with rfl | mem
    · rfl
    · obtain rfl := List.mem_singleton.mp mem
      rfl
  · intro f
    rw [Token.count_written written rfl, count_function_written]
  · rw [operators, count_operator_written]
  · rw [operators, count_operator_written]
  · have size := length_written e
    have kept := written.length_eq
    have whole := Token.length_plain tokens
    omega

/-- The tokens of `y - -e^x`. -/
def twoMinusSigns : List Token :=
  [⟨.name, "y", none, 0⟩, ⟨.operator .sub, "-", none, 2⟩, ⟨.operator .sub, "-", none, 4⟩,
    ⟨.euler, "e", none, 5⟩, ⟨.operator .pow, "^", none, 6⟩, ⟨.name, "x", none, 7⟩]

theorem ofTokens_twoMinusSigns :
    ∃ e, ofTokens 0 twoMinusSigns = .ok e ∧
      List.Forall₂ Token.Literal [⟨.name, "y", none, 0⟩, ⟨.name, "x", none, 7⟩]
        (e.leaves.filter (· != .euler)) ∧
      e.binaries .sub + e.unaries .neg = 2 ∧ e.size + e.unaries .exp = 6 := by
  have read : ofTokens 0 twoMinusSigns =
      .ok (.binary .sub (.var "y") (.unary .neg (.unary .exp (.var "x")))) := by
    have assembled : Item.assemble (twoMinusSigns.map .token) = .ok (.binary .sub (.var "y")
        (.unary .neg (.binary .pow .euler (.var "x")))) := Item.assemble_eq_sum _
    rw [ofTokens_eq (by decide)]
    exact bind_eq_ok.mpr ⟨twoMinusSigns.map .token, rfl,
      bind_eq_ok.mpr ⟨_, rfl, map_eq_ok.mpr ⟨_, assembled, rfl⟩⟩⟩
  obtain ⟨operands, _, _, _, signs, _, size⟩ := ofTokens_content read
  exact ⟨_, read, operands, signs.symm, size⟩

end Expr

end Formula
