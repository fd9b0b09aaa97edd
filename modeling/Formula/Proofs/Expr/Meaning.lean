import Formula.Proofs.Expr.Reread
import Formula.Proofs.Expr.Walk

/-!
What the exponential form changes and what it keeps. Main statement: it is the one form of a tree
without powers of e, it has the value of the tree wherever `exp(x)` is the power of e, and each of
these powers takes one node less in it.
-/

namespace Formula.Expr

universe u

/-- Values for the leaves and operations for the nodes; `exp(x)` is the power of e. -/
structure Interpretation (D : Type u) where
  number : Number → D
  var : String → D
  pi : D
  euler : D
  binary : BinaryOp → D → D → D
  unary : UnaryOp → D → D
  exp_eq : ∀ x, unary .exp x = binary .pow euler x

def Interpretation.value {D : Type u} (I : Interpretation D) : Expr → D
  | .number x => I.number x
  | .var name => I.var name
  | .pi => I.pi
  | .euler => I.euler
  | .binary op left right => I.binary op (I.value left) (I.value right)
  | .unary op operand => I.unary op (I.value operand)

def isPowerOfE : Expr → Bool
  | .binary .pow .euler _ => true
  | _ => false

/-- A node above operands that have been brought into exponential form. -/
def rebuild : Expr → List Expr → Expr
  | .binary op _ _, [left, right] =>
    match op, left with
    | .pow, .euler => .unary .exp right
    | op, base => .binary op base right
  | .unary op _, [operand] => .unary op operand
  | leaf, _ => leaf

theorem exponentialForm_eq_euler {e : Expr} : e.exponentialForm = .euler ↔ e = .euler := by
  cases e with
  | binary op left right =>
    by_cases power : op = .pow ∧ left.exponentialForm = .euler
    · obtain ⟨rfl, base⟩ := power
      simp [exponentialForm_of_power base]
    · simp [exponentialForm_binary_of_ne power]
  | unary op operand => simp
  | _ => exact Iff.rfl

theorem exponentialForm_binary_of_noPowerOfE {op : BinaryOp} {left right : Expr}
    (noPower : ¬(op = .pow ∧ left = .euler)) :
    (binary op left right).exponentialForm =
      .binary op left.exponentialForm right.exponentialForm := by
  apply exponentialForm_binary_of_ne
  rwa [exponentialForm_eq_euler]

theorem isPowerOfE_eq_false {op : BinaryOp} {left right : Expr}
    (noPower : ¬(op = .pow ∧ left = .euler)) : isPowerOfE (.binary op left right) = false := by
  unfold isPowerOfE
  split
  · simp_all
  · rfl

theorem value_exponentialForm {D : Type u} (I : Interpretation D) (e : Expr) :
    I.value e.exponentialForm = I.value e := by
  induction e with
  | binary op left right ihLeft ihRight =>
    by_cases power : op = .pow ∧ left = .euler
    · obtain ⟨rfl, rfl⟩ := power
      calc I.value (binary .pow .euler right).exponentialForm
        _ = I.unary .exp (I.value right.exponentialForm) := rfl
        _ = I.binary .pow I.euler (I.value right) := by rw [ihRight, I.exp_eq]
        _ = I.value (.binary .pow .euler right) := rfl
    · rw [exponentialForm_binary_of_noPowerOfE power]
      simp only [Interpretation.value, ihLeft, ihRight]
  | unary op operand ih => simp only [exponentialForm_operation, Interpretation.value, ih]
  | _ => rfl

/-- A tree without powers of e is in exponential form. -/
theorem exponentialForm_of_noPowerOfE {e : Expr}
    (noPower : ∀ right, .binary .pow .euler right ∉ e.nodes) : e.exponentialForm = e := by
  induction e with
  | binary op left right ihLeft ihRight =>
    have here : ¬(op = .pow ∧ left = .euler) := by
      rintro ⟨rfl, rfl⟩
      exact noPower right (self_mem_nodes _)
    rw [exponentialForm_binary_of_noPowerOfE here,
      ihLeft fun r mem => noPower r (nodes_left _ _ _ mem),
      ihRight fun r mem => noPower r (nodes_right _ _ _ mem)]
  | unary op operand ih =>
    rw [exponentialForm_operation, ih fun r mem => noPower r (nodes_operand _ _ mem)]
  | _ => rfl

theorem size_exponentialForm (e : Expr) :
    e.exponentialForm.size + e.nodes.countP isPowerOfE = e.size := by
  induction e with
  | binary op left right ihLeft ihRight =>
    by_cases power : op = .pow ∧ left = .euler
    · obtain ⟨rfl, rfl⟩ := power
      have counted : (binary .pow .euler right).nodes.countP isPowerOfE =
          right.nodes.countP isPowerOfE + 1 := by
        simp [nodes, List.countP_cons, isPowerOfE]
      have leaf : euler.size = 1 := rfl
      rw [counted, exponentialForm_of_power rfl, size_unary, size_binary, leaf]
      omega
    · rw [exponentialForm_binary_of_noPowerOfE power]
      simp only [nodes_binary, size_binary, List.countP_cons, List.countP_append,
        isPowerOfE_eq_false power, Bool.false_eq_true, if_false]
      omega
  | unary op operand ih =>
    simp only [exponentialForm_operation, size_unary, nodes_unary, List.countP_cons, isPowerOfE,
      Bool.false_eq_true, if_false]
    omega
  | _ => rfl

theorem exponentialForm_eq_rebuild (e : Expr) :
    e.exponentialForm = rebuild e (e.children.map exponentialForm) := by
  cases e <;> rfl

/-- The exponential form is made node by node, from the leaves up. -/
theorem fold_rebuild (e : Expr) :
    e.fold (fun node operands => (pure (rebuild node operands) : Id Expr)) =
      pure e.exponentialForm :=
  fold_pure exponentialForm_eq_rebuild e

/-- The exponential form, made node by node with a stack, has no power of e; it is the tree itself
exactly if that has none. It means what the tree means, and every power of e in the tree makes it
one node smaller. -/
theorem exponentialForm_normal (e : Expr) :
    walk (fun node operands => (pure (rebuild node operands) : Id Expr)) [.enter e] [] =
      pure [e.exponentialForm] ∧
    (∀ right, .binary .pow .euler right ∉ e.exponentialForm.nodes) ∧
    (e.exponentialForm = e ↔ ∀ right, .binary .pow .euler right ∉ e.nodes) ∧
    e.exponentialForm.exponentialForm = e.exponentialForm ∧
    (∀ {D : Type u} (I : Interpretation D), I.value e.exponentialForm = I.value e) ∧
    e.exponentialForm.size + e.nodes.countP isPowerOfE = e.size := by
  refine ⟨?_, no_powerOfE_exponentialForm e, ⟨?_, exponentialForm_of_noPowerOfE⟩,
    exponentialForm_idem e, fun I => value_exponentialForm I e, size_exponentialForm e⟩
  · rw [walk_enter, fold_rebuild]
    simp [walk]
  · intro same right mem
    apply no_powerOfE_exponentialForm e right
    rwa [same]

end Formula.Expr
