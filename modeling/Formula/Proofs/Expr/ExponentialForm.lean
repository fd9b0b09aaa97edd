import Formula.Expr.Basic

/-!
The exponential form of a node depends on the exponential forms of its operands only.
-/

namespace Formula.Expr

variable {op : BinaryOp} {left left' right right' : Expr}

@[simp]
theorem exponentialForm_operation (op : UnaryOp) (operand : Expr) :
    (unary op operand).exponentialForm = .unary op operand.exponentialForm := rfl

theorem exponentialForm_eq_ite (op : BinaryOp) (left right : Expr) :
    (binary op left right).exponentialForm =
      if op = .pow ∧ left.exponentialForm = .euler then .unary .exp right.exponentialForm
      else .binary op left.exponentialForm right.exponentialForm := by
  by_cases power : op = .pow ∧ left.exponentialForm = .euler
  · rw [if_pos power]
    obtain ⟨rfl, base⟩ := power
    rw [exponentialForm]
    exact base
  · rw [if_neg power, exponentialForm]
    intro isPower base
    exact power ⟨isPower, base⟩

theorem exponentialForm_of_power (base : left.exponentialForm = .euler) :
    (binary .pow left right).exponentialForm = .unary .exp right.exponentialForm := by
  rw [exponentialForm_eq_ite, if_pos ⟨rfl, base⟩]

theorem exponentialForm_binary_of_ne (noPower : ¬(op = .pow ∧ left.exponentialForm = .euler)) :
    (binary op left right).exponentialForm =
      .binary op left.exponentialForm right.exponentialForm := by
  rw [exponentialForm_eq_ite, if_neg noPower]

theorem exponentialForm_binary (op : BinaryOp)
    (sameLeft : left.exponentialForm = left'.exponentialForm)
    (sameRight : right.exponentialForm = right'.exponentialForm) :
    (binary op left right).exponentialForm = (binary op left' right').exponentialForm := by
  rw [exponentialForm_eq_ite, exponentialForm_eq_ite, sameLeft, sameRight]

theorem exponentialForm_unary (op : UnaryOp) {operand operand' : Expr}
    (same : operand.exponentialForm = operand'.exponentialForm) :
    (unary op operand).exponentialForm = (unary op operand').exponentialForm := by
  rw [exponentialForm_operation, exponentialForm_operation, same]

theorem exponentialForm_idem (e : Expr) :
    e.exponentialForm.exponentialForm = e.exponentialForm := by
  induction e with
  | binary op left right ihLeft ihRight =>
    by_cases power : op = .pow ∧ left.exponentialForm = .euler
    · obtain ⟨rfl, base⟩ := power
      rw [exponentialForm_of_power base, exponentialForm_operation, ihRight]
    · rw [exponentialForm_binary_of_ne power, exponentialForm_binary_of_ne (by rwa [ihLeft]),
        ihLeft, ihRight]
  | unary op operand ih => rw [exponentialForm_operation, exponentialForm_operation, ih]
  | _ => rfl

end Formula.Expr
