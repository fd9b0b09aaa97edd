import Formula.Proofs.Expr.ExponentialForm

/-!
What a tree is written as: its leaves, operators and functions from left to right, without
parentheses. Main statement: the exponential form of a tree is written as the tree itself.
-/

namespace Formula

/-- A piece of a formula that is no parenthesis. -/
inductive Mark where
  | leaf (e : Expr)
  | operator (op : BinaryOp)
  | function (f : Elementary)
  deriving DecidableEq

/-- A leaf other than e. -/
def Mark.isOperand : Mark → Bool
  | .leaf e => e != .euler
  | _ => false

namespace Expr

/-- The marks of a tree, left to right; `exp(x)` was a power of e. -/
def written : Expr → List Mark
  | .binary op left right => left.written ++ .operator op :: right.written
  | .unary .neg operand => .operator .sub :: operand.written
  | .unary .exp operand => .leaf .euler :: .operator .pow :: operand.written
  | .unary (.apply f) operand => .function f :: operand.written
  | leaf => [.leaf leaf]

@[simp]
theorem written_binary (op : BinaryOp) (left right : Expr) :
    (binary op left right).written = left.written ++ .operator op :: right.written := rfl

@[simp]
theorem written_neg (operand : Expr) :
    (unary .neg operand).written = .operator .sub :: operand.written := rfl

@[simp]
theorem written_exp (operand : Expr) :
    (unary .exp operand).written = .leaf .euler :: .operator .pow :: operand.written := rfl

@[simp]
theorem written_apply (f : Elementary) (operand : Expr) :
    (unary (.apply f) operand).written = .function f :: operand.written := rfl

/-- How many nodes of a tree are a binary operator. -/
def binaries (op : BinaryOp) : Expr → Nat
  | .binary op' left right =>
    (if op' = op then 1 else 0) + left.binaries op + right.binaries op
  | .unary _ operand => operand.binaries op
  | _ => 0

@[simp]
theorem binaries_binary (op op' : BinaryOp) (left right : Expr) :
    (binary op' left right).binaries op =
      (if op' = op then 1 else 0) + left.binaries op + right.binaries op := rfl

@[simp]
theorem binaries_unary (op : BinaryOp) (op' : UnaryOp) (operand : Expr) :
    (unary op' operand).binaries op = operand.binaries op := rfl

/-- How many nodes of a tree are a unary operator. -/
def unaries (op : UnaryOp) : Expr → Nat
  | .binary _ left right => left.unaries op + right.unaries op
  | .unary op' operand => (if op' = op then 1 else 0) + operand.unaries op
  | _ => 0

@[simp]
theorem unaries_binary (op : UnaryOp) (op' : BinaryOp) (left right : Expr) :
    (binary op' left right).unaries op = left.unaries op + right.unaries op := rfl

@[simp]
theorem unaries_unary (op op' : UnaryOp) (operand : Expr) :
    (unary op' operand).unaries op = (if op' = op then 1 else 0) + operand.unaries op := rfl

theorem written_unary (op : UnaryOp) {operand operand' : Expr}
    (same : operand.written = operand'.written) :
    (unary op operand).written = (unary op operand').written := by
  cases op <;> simp [same]

theorem written_exponentialForm (e : Expr) : e.exponentialForm.written = e.written := by
  induction e with
  | binary op left right ihLeft ihRight =>
    by_cases power : op = .pow ∧ left.exponentialForm = .euler
    · obtain ⟨rfl, base⟩ := power
      rw [base] at ihLeft
      rw [exponentialForm_of_power base, written_exp, written_binary, ← ihLeft, ihRight]
      rfl
    · rw [exponentialForm_binary_of_ne power]
      simp [ihLeft, ihRight]
  | unary op operand ih => exact written_unary op ih
  | _ => rfl

/-- A power of e is written with two marks more than its exponent, every other node with one. -/
theorem length_written (e : Expr) : e.written.length = e.size + e.unaries .exp := by
  induction e with
  | binary op left right ihLeft ihRight =>
    simp only [written_binary, size_binary, unaries_binary, List.length_append, List.length_cons]
    omega
  | unary op operand ih => cases op <;> simp [ih] <;> omega
  | _ => rfl

theorem filter_written (e : Expr) :
    e.written.filter Mark.isOperand = (e.leaves.filter (· != .euler)).map .leaf := by
  induction e with
  | binary op left right ihLeft ihRight => simp [Mark.isOperand, ihLeft, ihRight]
  | unary op operand ih => cases op <;> simp [Mark.isOperand, ih]
  | _ => rfl

theorem count_euler_written (e : Expr) :
    e.written.count (.leaf .euler) = e.leaves.count .euler + e.unaries .exp := by
  induction e with
  | binary op left right ihLeft ihRight =>
    simp [ihLeft, ihRight]
    omega
  | unary op operand ih =>
    cases op with
    | neg => simp [ih]
    | exp =>
      simp [ih]
      omega
    | apply f => simp [ih]
  | _ => simp [written, leaves, unaries]

theorem count_function_written (f : Elementary) (e : Expr) :
    e.written.count (.function f) = e.unaries (.apply f) := by
  induction e with
  | binary op left right ihLeft ihRight => simp [ihLeft, ihRight]
  | unary op operand ih =>
    cases op with
    | neg => simp [ih]
    | exp => simp [ih]
    | apply g =>
      simp [List.count_cons, ih]
      omega
  | _ => rfl

/-- A minus sign is written for a difference or a negation, a caret for a power or a power of e,
and the other operators for themselves. -/
theorem count_operator_written (op : BinaryOp) (e : Expr) :
    e.written.count (.operator op) = e.binaries op +
      match op with
      | .sub => e.unaries .neg
      | .pow => e.unaries .exp
      | _ => 0 := by
  induction e with
  | binary op' left right ihLeft ihRight =>
    cases op <;> simp [List.count_cons, ihLeft, ihRight] <;> omega
  | unary op' operand ih => cases op <;> cases op' <;> simp [ih] <;> omega
  | _ => cases op <;> rfl

end Expr

end Formula
