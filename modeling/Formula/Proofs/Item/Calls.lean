import Formula.Item.Call
import Formula.Proofs.Outcome

/-!
What the binding of calls does with the beginning of a list of items.
-/

namespace Formula.Item

open Outcome

/-- The function that an item names, if it is a keyword. -/
def function? : Item → Option Elementary
  | .token t =>
    match t.kind with
    | .function f => some f
    | _ => none
  | .tree _ => none

theorem bindCalls_cons {item : Item} (other : item.function? = none) (rest : List Item) :
    bindCalls (item :: rest) = (item :: ·) <$> bindCalls rest := by
  cases rest with
  | nil => rfl
  | cons next rest =>
    cases item with
    | tree e => rfl
    | token t =>
      obtain ⟨kind⟩ := t
      cases kind with
      | function f => cases other
      | _ => rfl

theorem bindCalls_call {t : Token} {f : Elementary} (isFunction : t.kind = .function f)
    (argument : Expr) (rest : List Item) :
    bindCalls (.token t :: .tree argument :: rest) =
      (.tree (.unary (.apply f) argument) :: ·) <$> bindCalls rest := by
  obtain ⟨kind⟩ := t
  cases isFunction
  rfl

theorem bindCalls_missing {t : Token} {f : Elementary} (isFunction : t.kind = .function f)
    (next : Token) (rest : List Item) :
    bindCalls (.token t :: .token next :: rest) = .error (.missingArgument t.text) := by
  obtain ⟨kind⟩ := t
  cases isFunction
  rfl

theorem bindCalls_error {items : List Item} {fault : Fault}
    (failed : bindCalls items = .error fault) : ∃ text, fault = .missingArgument text := by
  fun_induction bindCalls items with
  | case1 => cases failed
  | case2 item => cases failed
  | case3 e next rest ih => exact ih (map_eq_error.mp failed)
  | case4 t rest f argument isFunction ih => exact ih (map_eq_error.mp failed)
  | case5 t rest f isFunction next =>
    cases failed
    exact ⟨_, rfl⟩
  | case6 t next rest noCall noToken ih => exact ih (map_eq_error.mp failed)

end Formula.Item
