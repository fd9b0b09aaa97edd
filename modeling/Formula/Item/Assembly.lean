import Formula.Item.Basic

/-!
Assembly of items without groups and calls into one tree. A run of items is cut at its weakest
operators: first at `+` and `-`, then at `*` and `/`, then at `^`, with a leading minus sign
between the last two. The operands of `+ - * /` are joined from the left; what follows a `^` is
its whole right operand.
-/

namespace Formula.Item

/-- The additive operator at which a run is cut; a minus sign directly after an operator is a
sign. -/
def additive? (previous item : Item) : Option BinaryOp :=
  match item.operator? with
  | some .add => some .add
  | some .sub => if previous.isOperator then none else some .sub
  | _ => none

def multiplicative? (_previous item : Item) : Option BinaryOp :=
  match item.operator? with
  | some .mul => some .mul
  | some .div => some .div
  | _ => none

/-- Cuts the items that follow `previous`: what stands before the first operator, and each
operator with the items up to the next one. -/
def cut (op? : Item → Item → Option BinaryOp) (previous : Item) :
    List Item → List Item × List (BinaryOp × List Item)
  | [] => ([], [])
  | item :: rest =>
    let (first, parts) := cut op? item rest
    match op? previous item with
    | some op => ([], (op, first) :: parts)
    | none => (item :: first, parts)

/-- A tree under a number of minus signs. -/
def negate : Nat → Expr → Expr
  | 0, e => e
  | n + 1, e => .unary .neg (negate n e)

@[simp]
theorem negate_zero (e : Expr) : negate 0 e = e := rfl

@[simp]
theorem negate_succ (n : Nat) (e : Expr) : negate (n + 1) e = .unary .neg (negate n e) := rfl

/-- Puts the right-hand end of a chain of powers under the operands before it, the latest one
first; each has a number of minus signs before it, which cover the whole power. -/
def raise (frames : List (Nat × Expr)) (last : Expr) : Expr :=
  frames.foldl (fun right (signs, left) => negate signs (.binary .pow left right)) last

def isCaret (item : Item) : Bool := item.operator? == some .pow

section Step

variable {ε : Type} (fail : Fault → ε) (operand : List Item → Except ε Expr)

/-- Joins operands from the left, each assembled when its turn comes. -/
def joinLeft (first : List Item) (parts : List (BinaryOp × List Item)) : Except ε Expr := do
  let left ← operand first
  parts.foldlM (fun left (op, items) => return .binary op left (← operand items)) left

theorem length_dropWhile_le (p : Item → Bool) (items : List Item) :
    (items.dropWhile p).length ≤ items.length :=
  (List.dropWhile_sublist p).length_le

/-- A run without operators other than `^` and minus signs. Signs are counted while more than
one item is left; then the run is cut at its first `^` and goes on behind it. -/
def chain (frames : List (Nat × Expr)) (signs : Nat) : List Item → Except ε Expr
  | [] => .error (fail .missingOperand)
  | [item] =>
    match item.leaf with
    | .ok last => .ok (raise frames (negate signs last))
    | .error fault => .error (fail fault)
  | item :: rest =>
    if item.operator? = some .sub then chain frames (signs + 1) rest
    else
      match _h : rest.dropWhile (!·.isCaret) with
      | [] => .error (fail .noOperator)
      | _ :: after => do
        let left ← operand (item :: rest.takeWhile (!·.isCaret))
        chain ((signs, left) :: frames) 0 after
termination_by items => items.length
decreasing_by
  · simp
  · have := length_dropWhile_le (!·.isCaret) rest
    simp_all
    omega

/-- Assembles a run, given a way to assemble the shorter runs that it is cut into. The faults
found here become faults of that assembly by `fail`. -/
def step : List Item → Except ε Expr
  | [] => .error (fail .missingOperand)
  | [item] => item.leaf.mapError fail
  | item :: rest =>
    match cut additive? item rest with
    | (first, part :: parts) => joinLeft operand (item :: first) (part :: parts)
    | (_, []) =>
      match cut multiplicative? item rest with
      | (first, part :: parts) => joinLeft operand (item :: first) (part :: parts)
      | (_, []) => chain fail operand [] 0 (item :: rest)

end Step

/-- Assembles a run of items. A run is only ever cut into shorter ones; the comparison of
lengths says so to the recursion. -/
def assemble (items : List Item) : Except Fault Expr :=
  let shorter (part : List Item) :=
    if part.length < items.length then assemble part else .error .missingOperand
  step id shorter items
termination_by items.length

/-- What a cut leaves is shorter than what was cut. -/
theorem cut_length (op? : Item → Item → Option BinaryOp) (previous : Item) (items : List Item) :
    (cut op? previous items).1.length ≤ items.length ∧
      ∀ part ∈ (cut op? previous items).2,
        (cut op? previous items).1.length + part.2.length < items.length := by
  induction items generalizing previous with
  | nil => simp only [cut, List.not_mem_nil, false_implies, implies_true, and_true, Nat.le_refl]
  | cons item rest ih =>
    obtain ⟨first, parts⟩ := ih item
    cases h : op? previous item with
    | none =>
      simp only [cut, h, List.length_cons]
      exact ⟨by omega, fun part mem => by have := parts part mem; omega⟩
    | some op =>
      simp only [cut, h, List.length_cons, List.length_nil, List.mem_cons]
      refine ⟨by omega, ?_⟩
      rintro part (rfl | mem)
      · simp only
        omega
      · have := parts part mem
        omega

theorem cut_part_length {op? : Item → Item → Option BinaryOp} {previous : Item}
    {items first : List Item} {parts : List (BinaryOp × List Item)}
    (h : cut op? previous items = (first, parts)) {p : BinaryOp × List Item} (mem : p ∈ parts) :
    first.length + p.2.length < items.length := by
  have bounds := cut_length op? previous items
  rw [h] at bounds
  exact bounds.2 p mem

section Congruence

variable {ε : Type} (fail : Fault → ε) {f g : List Item → Except ε Expr}

theorem joinLeft_congr {first : List Item} {parts : List (BinaryOp × List Item)}
    (head : f first = g first) (tail : ∀ part ∈ parts, f part.2 = g part.2) :
    joinLeft f first parts = joinLeft g first parts := by
  have step (left : Expr) :
      parts.foldlM (fun left part => return .binary part.1 left (← f part.2)) left =
        parts.foldlM (fun left part => return .binary part.1 left (← g part.2)) left := by
    induction parts generalizing left with
    | nil => rfl
    | cons part parts ih =>
      simp only [List.foldlM_cons, tail part (by simp)]
      exact bind_congr fun left => ih (fun part mem => tail part (by simp [mem])) left
  simp only [joinLeft, head]
  exact bind_congr step

theorem chain_congr {frames : List (Nat × Expr)} {signs : Nat} {items : List Item}
    (shorter : ∀ part, part.length < items.length → f part = g part) :
    chain fail f frames signs items = chain fail g frames signs items := by
  fun_induction chain fail f frames signs items with
  | case1 => simp [chain]
  | case2 => simp [chain, *]
  | case3 => simp [chain, *]
  | case4 frames signs item rest single minus ih =>
    rw [chain.eq_3 _ _ _ _ _ _ single, if_pos minus]
    exact ih fun part bound => shorter part (by simp; omega)
  | case5 frames signs item rest single minus none =>
    rw [chain.eq_3 _ _ _ _ _ _ single, if_neg minus]
    split <;> simp_all
  | case6 frames signs item rest single minus caret after some ih =>
    have parts : (rest.takeWhile (!·.isCaret)).length + (after.length + 1) = rest.length := by
      rw [← List.length_cons (a := caret), ← some, ← List.length_append,
        List.takeWhile_append_dropWhile]
    rw [chain.eq_3 _ _ _ _ _ _ single, if_neg minus]
    split
    · simp_all
    · next other after' some' =>
      obtain ⟨rfl, rfl⟩ : caret = other ∧ after = after' := by simpa [some] using some'
      rw [shorter _ (by simp; omega)]
      exact bind_congr fun left => ih left fun part bound => shorter part (by simp; omega)

/-- A step depends on the assembly of shorter runs only. -/
theorem step_congr {items : List Item}
    (shorter : ∀ part, part.length < items.length → f part = g part) :
    step fail f items = step fail g items := by
  match items with
  | [] => rfl
  | [item] => rfl
  | item :: next :: rest =>
    simp only [step]
    split
    · next first part parts cutting =>
      have bound {p} := cut_part_length (p := p) cutting
      refine joinLeft_congr (shorter _ ?_) fun p mem => shorter _ ?_
      · have := bound (p := part) (by simp)
        simp_all
        omega
      · have := bound mem
        simp_all
        omega
    · split
      · next first part parts cutting =>
        have bound {p} := cut_part_length (p := p) cutting
        refine joinLeft_congr (shorter _ ?_) fun p mem => shorter _ ?_
        · have := bound (p := part) (by simp)
          simp_all
          omega
        · have := bound mem
          simp_all
          omega
      · exact chain_congr fail shorter

end Congruence

/-- Assembly is its own step. -/
theorem assemble_eq (items : List Item) : assemble items = step id assemble items := by
  rw [assemble]
  exact step_congr id fun part bound => if_pos bound

end Formula.Item
