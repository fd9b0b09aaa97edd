import Formula.Proofs.Item.Levels

/-!
Assembly one operator at a time. A run is cut in two at the one operator that stands at the root
of its tree, and both parts are assembled from the start again. Main statement: this gives the same
tree as assembly, or the same fault.
-/

namespace Formula.Item

/-- The last operator at which a level cuts the items that follow `previous`, with what stands
before it and behind it. -/
def lastCut? (op? : Item → Item → Option BinaryOp) (previous : Item) :
    List Item → Option (List Item × BinaryOp × List Item)
  | [] => none
  | item :: rest =>
    match lastCut? op? item rest with
    | some (left, op, right) => some (item :: left, op, right)
    | none => (op? previous item).map fun op => ([], op, rest)

section LastCut

variable {op? : Item → Item → Option BinaryOp} {previous : Item} {items left right : List Item}
  {op : BinaryOp}

theorem lastCut?_eq_none : lastCut? op? previous items = none ↔ Uncut op? (previous :: items) := by
  induction items generalizing previous with
  | nil => simp [lastCut?, Uncut]
  | cons item rest ih =>
    rw [lastCut?, Uncut, List.isChain_cons_cons, ← Uncut, ← ih]
    cases lastCut? op? item rest <;> simp

/-- The operator found is one to cut at, and none behind it is. -/
theorem lastCut?_eq_some (found : lastCut? op? previous items = some (left, op, right)) :
    ∃ before item, (previous :: left).getLast? = some before ∧ items = left ++ item :: right ∧
      op? before item = some op ∧ Uncut op? (item :: right) := by
  induction items generalizing previous left with
  | nil => cases found
  | cons item rest ih =>
    rw [lastCut?] at found
    split at found
    · next left op right later =>
      cases found
      obtain ⟨before, cutting, ends, split, here, uncut⟩ := ih later
      exact ⟨before, cutting, ends, congrArg (item :: ·) split, here, uncut⟩
    · next none =>
      obtain ⟨op, here, found⟩ := Option.map_eq_some_iff.mp found
      cases found
      exact ⟨previous, item, rfl, rfl, here, lastCut?_eq_none.mp none⟩

theorem lastCut?_length (found : lastCut? op? previous items = some (left, op, right)) :
    left.length + right.length < items.length := by
  obtain ⟨before, item, _, rfl, _, _⟩ := lastCut?_eq_some found
  rw [List.length_append, List.length_cons]
  omega

/-- Before its last operator a run is cut as if it ended there. -/
theorem cut_of_lastCut (found : lastCut? op? previous items = some (left, op, right)) :
    cut op? previous items =
      ((cut op? previous left).1, (cut op? previous left).2 ++ [(op, right)]) := by
  obtain ⟨before, item, ends, rfl, here, uncut⟩ := lastCut?_eq_some found
  clear found
  induction left generalizing previous with
  | nil =>
    obtain rfl : previous = before := by simpa using ends
    simp only [List.nil_append, cut, here, cut_of_uncut uncut]
  | cons next left ih =>
    rw [List.getLast?_cons_cons] at ends
    simp only [List.cons_append, cut, ih ends]
    cases op? previous next <;> rfl

theorem joinLeft_append (operand : List Item → Except Fault Expr) (first : List Item)
    (parts : List (BinaryOp × List Item)) (op : BinaryOp) (right : List Item) :
    joinLeft operand first (parts ++ [(op, right)]) = (do
      let left ← joinLeft operand first parts
      return .binary op left (← operand right)) := by
  simp only [joinLeft, List.foldlM_append, List.foldlM_cons, List.foldlM_nil, bind_assoc,
    bind_pure]

/-- The operands of a level are joined in two steps: all but the last one, and then the last. -/
theorem joinLeft_lastCut (operand : List Item → Except Fault Expr)
    (found : lastCut? op? previous items = some (left, op, right)) :
    joinLeft operand (split op? (previous :: items)).1 (split op? (previous :: items)).2 = (do
      let first ← joinLeft operand (split op? (previous :: left)).1 (split op? (previous :: left)).2
      return .binary op first (← operand right)) := by
  simp only [split, cut_of_lastCut found, joinLeft_append]

end LastCut

/-- The operator at which a run is cut in two, with what stands before it and behind it: the last
of `+` and `-`, and where there is none of these, the last of `*` and `/`. -/
def weakest? (first : Item) (rest : List Item) : Option (List Item × BinaryOp × List Item) :=
  (lastCut? additive? first rest).or (lastCut? multiplicative? first rest)

section Assembly

variable {item next : Item} {rest left right : List Item} {op : BinaryOp}

theorem weakest?_length (found : weakest? item rest = some (left, op, right)) :
    (item :: left).length < (item :: rest).length ∧ right.length < (item :: rest).length := by
  have bound : left.length + right.length < rest.length := by
    obtain found | ⟨_, found⟩ := Option.or_eq_some_iff.mp found
    · exact lastCut?_length found
    · exact lastCut?_length found
  simp only [List.length_cons]
  omega

theorem weakest?_eq_none :
    weakest? item rest = none ↔
      Uncut additive? (item :: rest) ∧ Uncut multiplicative? (item :: rest) := by
  rw [weakest?, Option.or_eq_none_iff, lastCut?_eq_none, lastCut?_eq_none]

theorem length_of_caret {caret : Item}
    (found : rest.dropWhile (!·.isCaret) = caret :: right) :
    (item :: rest.takeWhile (!·.isCaret)).length < (item :: rest).length ∧
      right.length < (item :: rest).length := by
  have whole : rest.takeWhile (!·.isCaret) ++ caret :: right = rest := by
    rw [← found, List.takeWhile_append_dropWhile]
  have lengths := congrArg List.length whole
  rw [List.length_append, List.length_cons] at lengths
  simp only [List.length_cons]
  omega

theorem assemble_of_weakest (found : weakest? item rest = some (left, op, right)) :
    assemble (item :: rest) = (do
      let first ← assemble (item :: left)
      return .binary op first (← assemble right)) := by
  simp only [assemble_eq_sum]
  obtain found | ⟨none, found⟩ := Option.or_eq_some_iff.mp found
  · obtain ⟨_, _, _, _, _, uncut⟩ := lastCut?_eq_some found
    have behind : Uncut additive? right := uncut.tail
    rw [sum_of_uncut behind]
    exact joinLeft_lastCut product found
  · have additive : Uncut additive? (item :: rest) := lastCut?_eq_none.mp none
    obtain ⟨_, cutting, _, rfl, _, uncut⟩ := lastCut?_eq_some found
    -- both parts lie in a run that is not cut at `+` and `-`
    have whole : Uncut additive? ((item :: left) ++ cutting :: right) := additive
    have before : Uncut additive? (item :: left) := List.IsChain.left_of_append whole
    have behind : Uncut additive? right := (List.IsChain.right_of_append whole).tail
    have factor : Uncut multiplicative? right := uncut.tail
    rw [sum_of_uncut additive, sum_of_uncut before, sum_of_uncut behind,
      product_of_uncut factor]
    exact joinLeft_lastCut power found

theorem assemble_of_sign (none : weakest? item (next :: rest) = none)
    (minus : item.operator? = some .sub) :
    assemble (item :: next :: rest) = .unary .neg <$> assemble (next :: rest) := by
  obtain ⟨additive, multiplicative⟩ := weakest?_eq_none.mp none
  have additiveBehind : Uncut additive? (next :: rest) := additive.tail
  have multiplicativeBehind : Uncut multiplicative? (next :: rest) := multiplicative.tail
  rw [assemble_of_uncut additive multiplicative,
    assemble_of_uncut additiveBehind multiplicativeBehind, power, if_pos minus]

theorem assemble_of_caret {caret : Item} (none : weakest? item (next :: rest) = none)
    (unsigned : item.operator? ≠ some .sub)
    (found : (next :: rest).dropWhile (!·.isCaret) = caret :: right) :
    assemble (item :: next :: rest) = (do
      let base ← assemble (item :: (next :: rest).takeWhile (!·.isCaret))
      return .binary .pow base (← assemble right)) := by
  obtain ⟨additive, multiplicative⟩ := weakest?_eq_none.mp none
  have behind : right <:+ item :: next :: rest := by
    have dropped := List.dropWhile_suffix (!·.isCaret) (l := next :: rest)
    rw [found] at dropped
    exact ((List.suffix_cons caret right).trans dropped).trans (List.suffix_cons item _)
  have additiveBehind := additive.part behind.isInfix
  have multiplicativeBehind := multiplicative.part behind.isInfix
  rw [assemble_eq, step_of_uncut id additive multiplicative, chain_caret id unsigned found]
  apply bind_congr
  intro base
  rw [chain_eq_power id (fun _ => assemble_of_base) additiveBehind multiplicativeBehind,
    assemble_of_uncut additiveBehind multiplicativeBehind]
  cases power right <;> rfl

theorem assemble_of_noCaret (none : weakest? item (next :: rest) = none)
    (unsigned : item.operator? ≠ some .sub)
    (missing : (next :: rest).dropWhile (!·.isCaret) = []) :
    assemble (item :: next :: rest) = .error .noOperator := by
  obtain ⟨additive, multiplicative⟩ := weakest?_eq_none.mp none
  rw [assemble_eq, step_of_uncut id additive multiplicative]
  exact chain_noCaret id unsigned missing

end Assembly

/-- Assembles a run by cutting it in two: at its weakest operator, or behind a leading minus sign,
or else at the first `^`. -/
def bisect (items : List Item) : Except Fault Expr :=
  match items with
  | [] => .error .missingOperand
  | [item] => item.leaf
  | item :: next :: rest =>
    match _h : weakest? item (next :: rest) with
    | some (left, op, right) => do
      let first ← bisect (item :: left)
      let second ← bisect right
      return .binary op first second
    | none =>
      if item.operator? = some .sub then .unary .neg <$> bisect (next :: rest)
      else
        match _h : (next :: rest).dropWhile (!·.isCaret) with
        | [] => .error .noOperator
        | _ :: right => do
          let base ← bisect (item :: (next :: rest).takeWhile (!·.isCaret))
          let exponent ← bisect right
          return .binary .pow base exponent
termination_by items.length
decreasing_by
  · exact (weakest?_length _h).1
  · exact (weakest?_length _h).2
  · exact Nat.lt_succ_self _
  · exact (length_of_caret _h).1
  · exact (length_of_caret _h).2

/-- Assembling run by run gives what cutting at one operator at a time gives: the same trees, and
the same faults where there is no tree. -/
theorem assemble_eq_bisect (items : List Item) : assemble items = bisect items := by
  fun_induction bisect items with
  | case1 =>
    rw [assemble_eq]
    rfl
  | case2 item =>
    rw [assemble_eq, step]
    cases item.leaf <;> rfl
  | case3 item next rest left op right found ihRight ihLeft =>
    rw [assemble_of_weakest found, ihLeft, ihRight]
  | case4 item next rest none minus ih => rw [assemble_of_sign none minus, ih]
  | case5 item next rest none unsigned missing =>
    exact assemble_of_noCaret none unsigned missing
  | case6 item next rest none unsigned caret right found ihBase ihExponent =>
    rw [assemble_of_caret none unsigned found, ihBase, ihExponent]

end Formula.Item
