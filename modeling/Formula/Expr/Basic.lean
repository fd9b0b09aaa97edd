import Formula.Number.Writing

/-!
Expression trees: numbers, variables and the two constants as leaves, operators and functions
above them. The constants stay symbols.
-/

namespace Formula

inductive BinaryOp where
  | add | sub | mul | div | pow
  deriving DecidableEq

/-- The functions that a formula can call by name. -/
inductive Elementary where
  | ln | sin | cos | tan | sqrt
  deriving DecidableEq

inductive UnaryOp where
  | neg
  | exp
  | apply (f : Elementary)
  deriving DecidableEq

inductive Expr where
  | number (value : Number)
  | var (name : String)
  | pi
  | euler
  | binary (op : BinaryOp) (left right : Expr)
  | unary (op : UnaryOp) (operand : Expr)
  deriving DecidableEq

namespace BinaryOp

def all : List BinaryOp := [.add, .sub, .mul, .div, .pow]

def symbol : BinaryOp → String
  | .add => "+"
  | .sub => "-"
  | .mul => "*"
  | .div => "/"
  | .pow => "^"

end BinaryOp

namespace Elementary

def all : List Elementary := [.ln, .sin, .cos, .tan, .sqrt]

def name : Elementary → String
  | .ln => "ln"
  | .sin => "sin"
  | .cos => "cos"
  | .tan => "tan"
  | .sqrt => "sqrt"

end Elementary

namespace UnaryOp

def all : List UnaryOp := .neg :: .exp :: Elementary.all.map .apply

def symbol : UnaryOp → String
  | .neg => "-"
  | .exp => "exp"
  | .apply f => f.name

end UnaryOp

namespace Expr

/-- The direct children, left to right. -/
def children : Expr → List Expr
  | .binary _ left right => [left, right]
  | .unary _ operand => [operand]
  | _ => []

/-- How many nodes a tree has. -/
def size : Expr → Nat
  | .binary _ left right => 1 + left.size + right.size
  | .unary _ operand => 1 + operand.size
  | _ => 1

@[simp]
theorem size_binary (op : BinaryOp) (left right : Expr) :
    (binary op left right).size = 1 + left.size + right.size := rfl

@[simp]
theorem size_unary (op : UnaryOp) (operand : Expr) :
    (unary op operand).size = 1 + operand.size := rfl

/-- The height of a tree; a leaf has height 1. -/
def depth : Expr → Nat
  | .binary _ left right => 1 + max left.depth right.depth
  | .unary _ operand => 1 + operand.depth
  | _ => 1

@[simp]
theorem depth_binary (op : BinaryOp) (left right : Expr) :
    (binary op left right).depth = 1 + max left.depth right.depth := rfl

@[simp]
theorem depth_unary (op : UnaryOp) (operand : Expr) :
    (unary op operand).depth = 1 + operand.depth := rfl

/-- The leaves, left to right. -/
def leaves : Expr → List Expr
  | .binary _ left right => left.leaves ++ right.leaves
  | .unary _ operand => operand.leaves
  | leaf => [leaf]

@[simp]
theorem leaves_binary (op : BinaryOp) (left right : Expr) :
    (binary op left right).leaves = left.leaves ++ right.leaves := rfl

@[simp]
theorem leaves_unary (op : UnaryOp) (operand : Expr) :
    (unary op operand).leaves = operand.leaves := rfl

/-- Equality of trees by shape, names and number values. -/
def same : Expr → Expr → Bool
  | .number x, .number y => x.same y
  | .var x, .var y => x == y
  | .pi, .pi => true
  | .euler, .euler => true
  | .binary op l r, .binary op' l' r' => op == op' && l.same l' && r.same r'
  | .unary op x, .unary op' x' => op == op' && x.same x'
  | _, _ => false

@[simp]
theorem same_binary (op op' : BinaryOp) (left right left' right' : Expr) :
    (binary op left right).same (.binary op' left' right') =
      (op == op' && left.same left' && right.same right') := rfl

@[simp]
theorem same_unary (op op' : UnaryOp) (operand operand' : Expr) :
    (unary op operand).same (.unary op' operand') = (op == op' && operand.same operand') := rfl

/-- The fully parenthesised form: each operator with its operands stands in parentheses, a minus
sign directly before its operand. -/
def text : Expr → String
  | .number value => value.text
  | .var name => name
  | .pi => "pi"
  | .euler => "e"
  | .binary op left right => "(" ++ left.text ++ " " ++ op.symbol ++ " " ++ right.text ++ ")"
  | .unary .neg operand => "-" ++ operand.text
  | .unary op operand => op.symbol ++ "(" ++ operand.text ++ ")"

theorem text_binary (op : BinaryOp) (left right : Expr) :
    (binary op left right).text =
      "(" ++ left.text ++ " " ++ op.symbol ++ " " ++ right.text ++ ")" := rfl

theorem text_negation (operand : Expr) : (unary .neg operand).text = "-" ++ operand.text := rfl

theorem text_call {op : UnaryOp} (noSign : op ≠ .neg) (operand : Expr) :
    (unary op operand).text = op.symbol ++ "(" ++ operand.text ++ ")" := by
  cases op with
  | neg => exact absurd rfl noSign
  | _ => rfl

/-- Every power of e in the form `exp(x)`; operands are taken first, so that a base that has
become e counts too. -/
def exponentialForm : Expr → Expr
  | .binary op left right =>
    match op, left.exponentialForm with
    | .pow, .euler => .unary .exp right.exponentialForm
    | op, base => .binary op base right.exponentialForm
  | .unary op operand => .unary op operand.exponentialForm
  | leaf => leaf

end Expr

end Formula
