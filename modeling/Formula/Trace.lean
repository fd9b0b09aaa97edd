import Formula.Reading

/-!
The forms that a formula takes while it is read, one after the other, up to its tree or its fault.
-/

namespace Formula

inductive Stage where
  | tokens (ts : List Token)
  | grouped (items : List Item)
  | called (items : List Item)
  | assembled (e : Expr)
  | exponential (e : Expr)
  | failed (fault : Fault)
  deriving DecidableEq

namespace Stage

def next {α : Type} (stage : α → Stage) (result : Except Fault α) (after : α → List Stage) :
    List Stage :=
  match result with
  | .ok value => stage value :: after value
  | .error fault => [failed fault]

/-- All stages of the reading of a text. Each outermost group is read with the whole limit, as a
formula of its own. -/
def ofText (limit : Int) (text : String) : List Stage :=
  next .tokens (Token.ofText text) fun ts =>
  next .grouped (Item.resolve (Expr.ofTokens limit) ts) fun items =>
  next .called (Item.bindCalls items) fun items =>
  next .assembled (Item.assemble items) fun e => [.exponential e.exponentialForm]

end Stage

end Formula
