import Formula.Fault

/-!
Items: what a list of tokens turns into step by step, while some of its parts are finished trees
and others still tokens.
-/

namespace Formula

inductive Item where
  | token (t : Token)
  | tree (e : Expr)
  deriving DecidableEq

namespace Item

/-- The operator that an item is, if it is one. -/
def operator? : Item → Option BinaryOp
  | .token t =>
    match t.kind with
    | .operator op => some op
    | _ => none
  | .tree _ => none

def isOperator (item : Item) : Bool := item.operator?.isSome

/-- A single item as a tree. A number token without a number is no leaf. -/
def leaf : Item → Except Fault Expr
  | .tree e => .ok e
  | .token t =>
    match t.kind, t.number with
    | .number, some value => .ok (.number value)
    | .name, _ => .ok (.var t.text)
    | .pi, _ => .ok .pi
    | .euler, _ => .ok .euler
    | _, _ => .error (.notALeaf t)

end Item

end Formula
