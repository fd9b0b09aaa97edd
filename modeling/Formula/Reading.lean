import Formula.Token.Run
import Formula.Item.Group
import Formula.Item.Call
import Formula.Item.Assembly

/-!
Reading a formula: groups, calls, operators, and last the powers of e. Groups are read in the
same way, one level of nesting further in.
-/

namespace Formula.Expr

/-- Reads tokens of which `room` levels, the outermost included, may still be entered. -/
def ofTokensWithin (limit : Int) : Nat → List Token → Except Fault Expr
  | 0, _ => .error (.tooDeep limit)
  | room + 1, tokens => do
    let items ← Item.resolve (ofTokensWithin limit room) tokens
    let items ← Item.bindCalls items
    let tree ← Item.assemble items
    return tree.exponentialForm

/-- The tree of a list of tokens whose parentheses may nest up to `limit` levels; below zero not
even the tokens outside all parentheses are read. -/
def ofTokens (limit : Int) (tokens : List Token) : Except Fault Expr :=
  ofTokensWithin limit (limit + 1).toNat tokens

/-- The tree of a text. -/
def ofText (limit : Int) (text : String) : Except Fault Expr := do
  ofTokens limit (← Token.ofText text)

end Formula.Expr
