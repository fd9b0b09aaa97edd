import Formula.Proofs.Item.Levels

/-!
Which fault a run has. The run is cut into its factors once, and each factor is judged on its own,
without any tree. Main statement: a run has a tree if no factor is faulty, and otherwise the fault
of its first faulty factor.
-/

namespace Formula.Item

open Outcome

/-- Whether a level cuts at an item that stands behind another one. -/
def cutsAt (op? : Item → Item → Option BinaryOp) (place : Option Item × Item) : Bool :=
  place.1.any fun previous => (op? previous place.2).isSome

/-- The runs between the items at which a level cuts, if the first item stands behind
`previous`. -/
def operandsBehind (op? : Item → Item → Option BinaryOp) (previous : Option Item)
    (items : List Item) : List (List Item) :=
  (((previous :: items.map some).zip items).splitOnP (cutsAt op?)).map (·.map Prod.snd)

/-- The factors of a run: the runs between additive operators, each cut again at `*` and `/`. -/
def factors (items : List Item) : List (List Item) :=
  (operandsBehind additive? none items).flatMap (operandsBehind multiplicative? none)

/-- The fault of an item that should be a leaf and is none. -/
def misplaced? : Item → Option Fault
  | .tree _ => none
  | .token t =>
    if t.kind ∈ [.name, .pi, .euler] ∨ t.kind = .number ∧ t.number.isSome then none
    else some (.notALeaf t)

/-- A factor without its leading minus signs; the last item stays, even if it is one. -/
def unsigned : List Item → List Item
  | item :: next :: rest =>
    if item.operator? = some .sub then unsigned (next :: rest) else item :: next :: rest
  | items => items

theorem length_unsigned_le (items : List Item) : (unsigned items).length ≤ items.length := by
  fun_induction unsigned items with
  | case1 item next rest _ ih => exact Nat.le_succ_of_le ih
  | case2 => exact Nat.le_refl _
  | case3 => exact Nat.le_refl _

/-- The fault of a factor. Several items behind the signs are a base, a `^` directly behind it and
an exponent; what is behind the first `^` is judged like a factor. -/
def verdict (factor : List Item) : Option Fault :=
  match _h : unsigned factor with
  | [] => some .missingOperand
  | [item] => item.misplaced?
  | item :: next :: rest =>
    if (next :: rest).findIdx? isCaret = some 0 then item.misplaced?.or (verdict rest)
    else some .noOperator
termination_by factor.length
decreasing_by
  have bound := length_unsigned_le factor
  rw [_h, List.length_cons, List.length_cons] at bound
  omega

section Operands

variable {op? : Item → Item → Option BinaryOp}

theorem operandsBehind_cons (previous : Option Item) (item : Item) (rest : List Item) :
    operandsBehind op? previous (item :: rest) =
      if cutsAt op? (previous, item) then [] :: operandsBehind op? (some item) rest
      else (operandsBehind op? (some item) rest).modifyHead (item :: ·) := by
  rw [operandsBehind, List.map_cons, List.zip_cons_cons, List.splitOnP_cons_eq_if_modifyHead]
  split
  · rfl
  · rw [operandsBehind]
    cases ((some item :: rest.map some).zip rest).splitOnP (cutsAt op?) <;> rfl

theorem operandsBehind_some (previous : Item) (items : List Item) :
    operandsBehind op? (some previous) items =
      (cut op? previous items).1 :: (cut op? previous items).2.map Prod.snd := by
  induction items generalizing previous with
  | nil => rfl
  | cons item rest ih =>
    rw [operandsBehind_cons, ih, cut]
    cases here : op? previous item <;> simp [cutsAt, here]

/-- The runs between the operators of a level are the parts that the level assembles. -/
theorem operandsBehind_none (items : List Item) :
    operandsBehind op? none items = (split op? items).1 :: (split op? items).2.map Prod.snd := by
  cases items with
  | nil => rfl
  | cons item rest =>
    rw [operandsBehind_cons, operandsBehind_some, split]
    rfl

end Operands

/-- An item that should be a leaf has a tree, or it is misplaced. -/
theorem fault?_leaf (item : Item) : fault? item.leaf = item.misplaced? := by
  cases item with
  | tree e => rfl
  | token t =>
    rw [leaf, misplaced?]
    cases kind : t.kind <;> cases number : t.number <;> simp [fault?]

/-- Operands are joined from the left, so the fault is that of the first one with a fault. -/
theorem fault?_joinLeft (operand : List Item → Except Fault Expr) (first : List Item)
    (parts : List (BinaryOp × List Item)) :
    fault? (joinLeft operand first parts) =
      (first :: parts.map Prod.snd).findSome? fun run => fault? (operand run) := by
  have behind (left : Expr) : fault? (joinParts operand left parts) =
      (parts.map Prod.snd).findSome? fun run => fault? (operand run) := by
    induction parts generalizing left with
    | nil => rfl
    | cons part parts ih =>
      obtain ⟨op, run⟩ := part
      rw [joinParts, List.map_cons, List.findSome?_cons]
      cases operand run with
      | error fault => rfl
      | ok right => exact ih _
  rw [joinLeft_eq, List.findSome?_cons]
  cases operand first with
  | error fault => rfl
  | ok left => exact behind left

/-- A factor is judged as the power that it is assembled as. -/
theorem fault?_power (items : List Item) : fault? (power items) = verdict items := by
  fun_induction power items with
  | case1 =>
    rw [verdict]
    rfl
  | case2 item => 
    rw [verdict]
    exact fault?_leaf item
  | case3 item next rest minus ih =>
    -- the sign is dropped before anything is judged
    rw [verdict, unsigned, if_pos minus, ← verdict, ← ih]
    cases power (next :: rest) <;> rfl
  | case4 item next rest signed caret ih =>
    have here : (next :: rest).findIdx? isCaret = some 0 := by rw [List.findIdx?_cons, if_pos caret]
    rw [verdict, unsigned, if_neg signed]
    simp only [here, if_true]
    rw [← fault?_leaf, ← ih]
    cases item.leaf with
    | error fault => rfl
    | ok base => cases power rest <;> rfl
  | case5 item next rest signed caret =>
    have notHere : (next :: rest).findIdx? isCaret ≠ some 0 := by
      simp [List.findIdx?_cons, caret]
    rw [verdict, unsigned, if_neg signed]
    simp only [if_neg notHere]
    rfl

/-- The fault of a run is the first one among its factors. -/
theorem fault?_assemble (items : List Item) :
    fault? (assemble items) = (factors items).findSome? verdict := by
  have level (run : List Item) :
      fault? (product run) = (operandsBehind multiplicative? none run).findSome? verdict := by
    rw [product, fault?_joinLeft, operandsBehind_none]
    simp only [fault?_power]
  calc fault? (assemble items)
    _ = (operandsBehind additive? none items).findSome? fun run => fault? (product run) := by
      rw [assemble_eq_sum, sum, fault?_joinLeft, operandsBehind_none]
    _ = ((factors items).filterMap verdict).head? := by
      rw [factors, List.filterMap_flatMap, List.head?_flatMap]
      simp only [level, List.head?_filterMap]
    _ = (factors items).findSome? verdict := List.head?_filterMap

/-- A run has a tree exactly if all of its factors are sound; otherwise it has the fault of the
first factor that is not, whatever the faults of the later ones. -/
theorem assemble_verdict (items : List Item) :
    ((∃ e, assemble items = .ok e) ↔ ∀ factor ∈ factors items, verdict factor = none) ∧
      ∀ fault, assemble items = .error fault ↔
        ∃ before factor behind, factors items = before ++ factor :: behind ∧
          verdict factor = some fault ∧ ∀ sound ∈ before, verdict sound = none := by
  constructor
  · rw [← fault?_eq_none, fault?_assemble, List.findSome?_eq_none_iff]
  · intro fault
    rw [← fault?_eq_some, fault?_assemble, List.findSome?_eq_some_iff]

end Formula.Item
