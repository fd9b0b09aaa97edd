import Formula.Item.Assembly
import Formula.Number.Reading
import Formula.Proofs.Expr.ExponentialForm

/-!
What the text of a tree is read back as. A minus sign has no parentheses of its own, so before a
power it comes to cover the whole power; numbers become what their texts are read as. Main
statement: the tree comes back exactly if no power has a negated base.
-/

namespace Formula.Expr

open Item

/-- All nodes, each before those below it. -/
def nodes : Expr → List Expr
  | .binary op left right => .binary op left right :: (left.nodes ++ right.nodes)
  | .unary op operand => .unary op operand :: operand.nodes
  | leaf => [leaf]

@[simp]
theorem nodes_binary (op : BinaryOp) (left right : Expr) :
    (binary op left right).nodes = .binary op left right :: (left.nodes ++ right.nodes) := rfl

@[simp]
theorem nodes_unary (op : UnaryOp) (operand : Expr) :
    (unary op operand).nodes = .unary op operand :: operand.nodes := rfl

theorem self_mem_nodes (t : Expr) : t ∈ t.nodes := by
  cases t <;> exact List.mem_cons_self

theorem nodes_left (op : BinaryOp) (left right : Expr) :
    left.nodes ⊆ (binary op left right).nodes := by
  intro node mem
  simp [mem]

theorem nodes_right (op : BinaryOp) (left right : Expr) :
    right.nodes ⊆ (binary op left right).nodes := by
  intro node mem
  simp [mem]

theorem nodes_operand (op : UnaryOp) (operand : Expr) :
    operand.nodes ⊆ (unary op operand).nodes := by
  intro node mem
  simp [mem]

/-- In exponential form no power has the base e. -/
theorem no_powerOfE_exponentialForm (t right : Expr) :
    .binary .pow .euler right ∉ t.exponentialForm.nodes := by
  induction t with
  | binary op left right' ihLeft ihRight =>
    by_cases power : op = .pow ∧ left.exponentialForm = .euler
    · obtain ⟨rfl, base⟩ := power
      simpa [exponentialForm_of_power base] using ihRight
    · rw [exponentialForm_binary_of_ne power]
      simp only [nodes_binary, List.mem_cons, List.mem_append, binary.injEq, not_or]
      refine ⟨?_, ihLeft, ihRight⟩
      rintro ⟨rfl, base, _⟩
      exact power ⟨rfl, base.symm⟩
  | unary op operand ih => simpa using ih
  | _ => exact fun mem => nomatch List.mem_singleton.mp mem

/-- The minus signs that the text of a tree starts with. -/
def signs : Expr → Nat
  | .unary .neg operand => operand.signs + 1
  | _ => 0

/-- An operation between operands without parentheses: signs before a power cover all of it. -/
def operation (op : BinaryOp) (signs : Nat) (left right : Expr) : Expr :=
  match op with
  | .pow => negate signs (.binary .pow left right)
  | op => .binary op (negate signs left) right

/-- What the text of a tree is read as behind its signs, before powers of e are rewritten. -/
def core : Expr → Expr
  | .number x => .number ((Number.ofText? x.toChars).getD x)
  | .binary op left right => operation op left.signs left.core (negate right.signs right.core)
  | .unary .neg operand => operand.core
  | .unary op operand => .unary op (negate operand.signs operand.core)
  | leaf => leaf

def reread (t : Expr) : Expr := negate t.signs t.core

theorem operation_of_ne {op : BinaryOp} (other : op ≠ .pow) (signs : Nat) (left right : Expr) :
    operation op signs left right = .binary op (negate signs left) right := by
  cases op <;> first | rfl | exact absurd rfl other

theorem reread_unary (op : UnaryOp) (operand : Expr) :
    (unary op operand).reread = .unary op operand.reread := by
  cases op <;> rfl

theorem reread_binary {op : BinaryOp} (other : op ≠ .pow) (left right : Expr) :
    (binary op left right).reread = .binary op left.reread right.reread :=
  operation_of_ne other _ _ _

/-- The signs that the base starts with cover the whole power. -/
theorem reread_power (left right : Expr) :
    (binary .pow left right).reread =
      negate left.signs (.binary .pow left.core right.reread) := rfl

theorem reread_pow {left : Expr} (unsigned : left.signs = 0) (right : Expr) :
    (binary .pow left right).reread = .binary .pow left.reread right.reread := by
  have base : left.reread = left.core := by rw [reread, unsigned, negate_zero]
  rw [reread_power, unsigned, negate_zero, base]

theorem reread_number (x : Number) :
    (number x).reread = .number ((Number.ofText? x.toChars).getD x) := rfl

theorem signs_eq_zero {t : Expr} (noNegation : ∀ x, t ≠ .unary .neg x) : t.signs = 0 := by
  cases t with
  | unary op operand =>
    cases op with
    | neg => exact absurd rfl (noNegation operand)
    | _ => rfl
  | _ => rfl

/-- A power whose base starts with a sign does not come back as a power. -/
theorem signs_of_same_pow {left right : Expr}
    (back : (binary .pow left right).reread.exponentialForm.same (.binary .pow left right)) :
    left.signs = 0 := by
  cases count : left.signs with
  | zero => rfl
  | succ n =>
    rw [reread_power, count, negate_succ] at back
    cases back

theorem no_negatedBase_of_same {t : Expr} (back : t.reread.exponentialForm.same t)
    (x right : Expr) : .binary .pow (.unary .neg x) right ∉ t.nodes := by
  induction t with
  | binary op left right' ihLeft ihRight =>
    have both (sameForm : (binary op left right').reread.exponentialForm =
        .binary op left.reread.exponentialForm right'.reread.exponentialForm) :
        .binary .pow (.unary .neg x) right ∉ left.nodes ∧
          .binary .pow (.unary .neg x) right ∉ right'.nodes := by
      simp only [sameForm, same_binary, Bool.and_eq_true] at back
      exact ⟨ihLeft back.1.2, ihRight back.2⟩
    by_cases power : op = .pow
    · subst power
      have unsigned := signs_of_same_pow back
      have noEuler : left.reread.exponentialForm ≠ .euler := by
        intro euler
        rw [reread_pow unsigned, exponentialForm_of_power euler] at back
        cases back
      have here : left ≠ .unary .neg x := by
        rintro rfl
        cases unsigned
      obtain ⟨notLeft, notRight⟩ := both <| by
        rw [reread_pow unsigned, exponentialForm_binary_of_ne (by simp [noEuler])]
      simp [notLeft, notRight, Ne.symm here]
    · obtain ⟨notLeft, notRight⟩ := both <| by
        rw [reread_binary power, exponentialForm_binary_of_ne (by simp [power])]
      simp [notLeft, notRight, Ne.symm power]
  | unary op operand ih =>
    simp only [reread_unary, exponentialForm_operation, same_unary, Bool.and_eq_true] at back
    simpa using ih back.2
  | _ => exact fun mem => nomatch List.mem_singleton.mp mem

theorem same_reread {t : Expr}
    (noNegatedBase : ∀ x right, .binary .pow (.unary .neg x) right ∉ t.nodes)
    (noPowerOfE : ∀ right, .binary .pow .euler right ∉ t.nodes)
    (numbers : ∀ x, .number x ∈ t.nodes → ∃ y, Number.ofText? x.toChars = some y ∧ y.same x) :
    t.reread.exponentialForm.same t := by
  induction t with
  | number x =>
    obtain ⟨y, read, sameValue⟩ := numbers x (self_mem_nodes _)
    rw [reread_number, read]
    exact sameValue
  | binary op left right ihLeft ihRight =>
    have backLeft := ihLeft (fun x r mem => noNegatedBase x r (nodes_left _ _ _ mem))
      (fun r mem => noPowerOfE r (nodes_left _ _ _ mem))
      (fun x mem => numbers x (nodes_left _ _ _ mem))
    have backRight := ihRight (fun x r mem => noNegatedBase x r (nodes_right _ _ _ mem))
      (fun r mem => noPowerOfE r (nodes_right _ _ _ mem))
      (fun x mem => numbers x (nodes_right _ _ _ mem))
    by_cases power : op = .pow
    · subst power
      have unsigned : left.signs = 0 := by
        apply signs_eq_zero
        rintro x rfl
        exact noNegatedBase x right (self_mem_nodes _)
      have noEuler : left.reread.exponentialForm ≠ .euler := by
        intro euler
        rw [euler] at backLeft
        cases left with
        | euler => exact noPowerOfE right (self_mem_nodes _)
        | _ => cases backLeft
      rw [reread_pow unsigned, exponentialForm_binary_of_ne (by simp [noEuler])]
      simp [backLeft, backRight]
    · rw [reread_binary power, exponentialForm_binary_of_ne (by simp [power])]
      simp [backLeft, backRight]
  | unary op operand ih =>
    have back := ih (fun x r mem => noNegatedBase x r (nodes_operand _ _ mem))
      (fun r mem => noPowerOfE r (nodes_operand _ _ mem))
      (fun x mem => numbers x (nodes_operand _ _ mem))
    simpa [reread_unary] using back
  | var name => exact beq_self_eq_true name
  | _ => rfl

end Formula.Expr
