import Formula.Proofs.Item.Levels

/-!
How deep assembly goes. A run is assembled out of the runs that it is cut into, and these out of
shorter ones again. Main statement: however long the run, no more than four assemblies lie inside
one another, namely those of a sum, of a product in it, of a power in that and of its base.
-/

namespace Formula.Item

/-- Assembly in which at most `depth` assemblies lie inside one another, the outermost counted; the
fault is `none` where more would be needed. -/
def assembleWithin : Nat → List Item → Except (Option Fault) Expr
  | 0, _ => .error none
  | depth + 1, items => step some (assembleWithin depth) items

section Depth

variable (depth : Nat) {items : List Item}

theorem assembleWithin_base (base : Base items) :
    assembleWithin (depth + 1) items = (power items).mapError some :=
  step_of_base some base

theorem assembleWithin_power (additive : Uncut additive? items)
    (multiplicative : Uncut multiplicative? items) :
    assembleWithin (depth + 2) items = (power items).mapError some := by
  apply step_eq_power some _ additive multiplicative
  intro run base
  exact assembleWithin_base depth base

theorem assembleWithin_product (additive : Uncut additive? items) :
    assembleWithin (depth + 3) items = (product items).mapError some := by
  apply step_eq_product some _ additive
  intro run additive multiplicative
  exact assembleWithin_power depth additive multiplicative

theorem assembleWithin_sum : assembleWithin (depth + 4) items = (sum items).mapError some := by
  apply step_eq_sum some
  intro run additive
  exact assembleWithin_product depth additive

end Depth

/-- Four assemblies inside one another suffice for every run, with the tree or the fault that
assembly has without a bound; three do not suffice for all. -/
theorem assembleWithin_four :
    (∀ (more : Nat) (items : List Item),
      assembleWithin (more + 4) items = (assemble items).mapError some ∧
        assembleWithin (more + 4) items ≠ .error none) ∧
      ∃ items, assembleWithin 3 items = .error none := by
  constructor
  · intro more items
    rw [assembleWithin_sum, assemble_eq_sum]
    refine ⟨rfl, ?_⟩
    cases sum items <;> simp [Except.mapError]
  · -- the base of the power would be the fourth
    let sign (op : BinaryOp) : Item := .token ⟨.operator op, op.symbol, none, 0⟩
    exact ⟨[.tree .pi, sign .add, .tree .pi, sign .mul, .tree .pi, sign .pow, .tree .pi], by cbv⟩

end Formula.Item
