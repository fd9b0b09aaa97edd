import Formula.Item.Basic

/-!
Calls. A function keyword takes the tree directly after it as its argument. This comes before all
operators, so a call never takes more than that one tree.
-/

namespace Formula.Item

/-- Binds each keyword to the tree after it. The last item has nothing after it and stays as it
is, a keyword too. -/
def bindCalls : List Item → Except Fault (List Item)
  | [] => .ok []
  | [item] => .ok [item]
  | .tree e :: next :: rest => (.tree e :: ·) <$> bindCalls (next :: rest)
  | .token t :: next :: rest =>
    match t.kind, next with
    | .function f, .tree argument => (.tree (.unary (.apply f) argument) :: ·) <$> bindCalls rest
    | .function _, .token _ => .error (.missingArgument t.text)
    | _, _ => (.token t :: ·) <$> bindCalls (next :: rest)

end Formula.Item
