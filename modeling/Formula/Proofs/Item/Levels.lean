import Mathlib.Data.List.Chain
import Mathlib.Data.List.TakeWhile
import Formula.Item.Assembly
import Formula.Proofs.Outcome

/-!
The levels of assembly. A run is a sum of products of powers: an operand of one level holds no
operator of that level or a weaker one, so nothing has to be assembled from the start again. A step
of assembly whose parts are assembled as the level below reads them is a reading of the level.
Main statement: assembly is the sum level, for every run and with the same faults.
-/

namespace Formula.Item

open Outcome

/-- A run that holds at most minus signs and `^`, from the left. -/
def power : List Item → Except Fault Expr
  | [] => .error .missingOperand
  | [item] => item.leaf
  | item :: next :: rest =>
    if item.operator? = some .sub then .unary .neg <$> power (next :: rest)
    else if next.isCaret then do
      let base ← item.leaf
      let exponent ← power rest
      return .binary .pow base exponent
    else .error .noOperator

/-- Cuts a whole run; its first item is never an operator to cut at. -/
def split (op? : Item → Item → Option BinaryOp) :
    List Item → List Item × List (BinaryOp × List Item)
  | [] => ([], [])
  | item :: rest => (item :: (cut op? item rest).1, (cut op? item rest).2)

def product (items : List Item) : Except Fault Expr :=
  joinLeft power (split multiplicative? items).1 (split multiplicative? items).2

def sum (items : List Item) : Except Fault Expr :=
  joinLeft product (split additive? items).1 (split additive? items).2

/-- Nowhere in the run does a level cut. -/
def Uncut (op? : Item → Item → Option BinaryOp) (items : List Item) : Prop :=
  items.IsChain fun previous item => op? previous item = none

theorem operator_of_additive {previous item : Item} {op : BinaryOp}
    (here : additive? previous item = some op) :
    item.operator? = some op ∧ (op = .add ∨ op = .sub) := by
  unfold additive? at here
  split at here
  · cases here
    exact ⟨‹_›, .inl rfl⟩
  · split at here <;> cases here
    exact ⟨‹_›, .inr rfl⟩
  · cases here

theorem operator_of_multiplicative {previous item : Item} {op : BinaryOp}
    (here : multiplicative? previous item = some op) :
    item.operator? = some op ∧ (op = .mul ∨ op = .div) := by
  unfold multiplicative? at here
  split at here <;> cases here
  · exact ⟨‹_›, .inl rfl⟩
  · exact ⟨‹_›, .inr rfl⟩

section Cut

variable {op? : Item → Item → Option BinaryOp} {previous : Item} {items : List Item}

theorem Uncut.part {part : List Item} (uncut : Uncut op? items) (inside : part <:+: items) :
    Uncut op? part :=
  List.IsChain.infix uncut inside

theorem cut_of_uncut (uncut : Uncut op? (previous :: items)) :
    cut op? previous items = (items, []) := by
  induction items generalizing previous with
  | nil => rfl
  | cons item rest ih =>
    obtain ⟨here, later⟩ := List.isChain_cons_cons.mp uncut
    simp only [cut, ih later, here]

theorem uncut_of_cut (none : (cut op? previous items).2 = []) :
    Uncut op? (previous :: items) := by
  induction items generalizing previous with
  | nil => exact .singleton _
  | cons item rest ih =>
    cases here : op? previous item with
    | none =>
      simp only [cut, here] at none
      exact List.isChain_cons_cons.mpr ⟨here, ih none⟩
    | some op => simp [cut, here] at none

/-- A run that a level cuts has a first item, which is no place to cut at, and others behind it. -/
theorem exists_cut (cuts : ¬Uncut op? items) :
    ∃ item next rest first part parts, items = item :: next :: rest ∧
      cut op? item (next :: rest) = (first, part :: parts) := by
  match items with
  | [] => exact absurd .nil cuts
  | [item] => exact absurd (.singleton _) cuts
  | item :: next :: rest =>
    cases cutting : cut op? item (next :: rest) with
    | mk first parts =>
      cases parts with
      | nil => exact absurd (uncut_of_cut (by rw [cutting])) cuts
      | cons part parts => exact ⟨item, next, rest, first, part, parts, rfl, cutting⟩

theorem split_of_uncut (uncut : Uncut op? items) : split op? items = (items, []) := by
  cases items with
  | nil => rfl
  | cons item rest => simp only [split, cut_of_uncut uncut]

/-- What stands before the first operator is a beginning of the run, and what stands between two
operators lies inside it. -/
theorem cut_parts (op? : Item → Item → Option BinaryOp) (previous : Item) (items : List Item) :
    (cut op? previous items).1 <+: items ∧
      ∀ part ∈ (cut op? previous items).2, part.2 <:+: items := by
  induction items generalizing previous with
  | nil => simp [cut]
  | cons item rest ih =>
    obtain ⟨first, parts⟩ := ih item
    cases here : op? previous item with
    | none =>
      simp only [cut, here]
      exact ⟨List.cons_prefix_cons.mpr ⟨rfl, first⟩,
        fun part mem => (parts part mem).trans (List.suffix_cons item rest).isInfix⟩
    | some op =>
      simp only [cut, here, List.mem_cons]
      refine ⟨List.nil_prefix, ?_⟩
      rintro part (rfl | mem)
      · exact first.isInfix.trans (List.suffix_cons item rest).isInfix
      · exact (parts part mem).trans (List.suffix_cons item rest).isInfix

theorem cut_uncut (op? : Item → Item → Option BinaryOp) (previous : Item) (items : List Item) :
    Uncut op? (previous :: (cut op? previous items).1) ∧
      ∀ part ∈ (cut op? previous items).2, Uncut op? part.2 := by
  induction items generalizing previous with
  | nil => exact ⟨.singleton _, by simp [cut]⟩
  | cons item rest ih =>
    obtain ⟨first, parts⟩ := ih item
    cases here : op? previous item with
    | none =>
      simp only [cut, here]
      exact ⟨List.isChain_cons_cons.mpr ⟨here, first⟩, parts⟩
    | some op =>
      simp only [cut, here, List.mem_cons]
      refine ⟨.singleton _, ?_⟩
      rintro part (rfl | mem)
      · exact first.tail
      · exact parts part mem

end Cut

/-- Joins the operands that follow a finished one, from the left. -/
def joinParts (operand : List Item → Except Fault Expr) (left : Expr) :
    List (BinaryOp × List Item) → Except Fault Expr
  | [] => .ok left
  | (op, part) :: parts =>
    operand part >>= fun right => joinParts operand (.binary op left right) parts

theorem joinLeft_eq (operand : List Item → Except Fault Expr) (first : List Item)
    (parts : List (BinaryOp × List Item)) :
    joinLeft operand first parts = operand first >>= fun left => joinParts operand left parts := by
  rw [joinLeft]
  apply bind_congr
  intro left
  induction parts generalizing left with
  | nil => rfl
  | cons part parts ih =>
    obtain ⟨op, items⟩ := part
    simp only [List.foldlM_cons, joinParts]
    cases operand items with
    | error fault => rfl
    | ok right => exact ih _

theorem joinLeft_nil (operand : List Item → Except Fault Expr) (first : List Item) :
    joinLeft operand first [] = operand first := by
  rw [joinLeft_eq]
  cases operand first <;> rfl

theorem sum_of_uncut {items : List Item} (uncut : Uncut additive? items) :
    sum items = product items := by
  rw [sum, split_of_uncut uncut, joinLeft_nil]

theorem product_of_uncut {items : List Item} (uncut : Uncut multiplicative? items) :
    product items = power items := by
  rw [product, split_of_uncut uncut, joinLeft_nil]

theorem negate_neg (signs : Nat) (e : Expr) :
    negate signs (.unary .neg e) = negate (signs + 1) e := by
  induction signs with
  | zero => rfl
  | succ signs ih => exact congrArg (Expr.unary .neg) ih

/-- What a power is raised from: one item, or several that no level cuts, without a sign in front
and without a `^`. -/
inductive Base : List Item → Prop where
  | single (item : Item) : Base [item]
  | several {item next : Item} {rest : List Item} (additive : Uncut additive? (item :: next :: rest))
    (multiplicative : Uncut multiplicative? (item :: next :: rest))
    (unsigned : item.operator? ≠ some .sub) (unraised : ∀ x ∈ next :: rest, (!x.isCaret) = true) :
    Base (item :: next :: rest)

theorem Base.uncut {items : List Item} (base : Base items) :
    Uncut additive? items ∧ Uncut multiplicative? items := by
  cases base with
  | single item => exact ⟨.singleton _, .singleton _⟩
  | several additive multiplicative _ _ => exact ⟨additive, multiplicative⟩

/-- Before its first `^` an unsigned run is a base. -/
theorem base_takeWhile {item : Item} {rest : List Item} (additive : Uncut additive? (item :: rest))
    (multiplicative : Uncut multiplicative? (item :: rest))
    (unsigned : item.operator? ≠ some .sub) : Base (item :: rest.takeWhile (!·.isCaret)) := by
  have inside : item :: rest.takeWhile (!·.isCaret) <+: item :: rest :=
    List.cons_prefix_cons.mpr ⟨rfl, List.takeWhile_prefix _⟩
  have unraised := fun x => List.mem_takeWhile_imp (x := x) (p := (!·.isCaret)) (l := rest)
  have additiveBase := additive.part inside.isInfix
  have multiplicativeBase := multiplicative.part inside.isInfix
  cases before : rest.takeWhile (!·.isCaret) with
  | nil => exact .single item
  | cons next more =>
    rw [before] at additiveBase multiplicativeBase unraised
    exact .several additiveBase multiplicativeBase unsigned unraised

section Step

variable {ε : Type} (fail : Fault → ε) {operand : List Item → Except ε Expr} {items : List Item}

theorem joinLeft_mapError (level : List Item → Except Fault Expr) (first : List Item)
    (parts : List (BinaryOp × List Item)) :
    joinLeft (fun run => (level run).mapError fail) first parts =
      (joinLeft level first parts).mapError fail := by
  rw [joinLeft, joinLeft]
  cases level first with
  | error fault => rfl
  | ok left =>
    change List.foldlM _ left parts = Except.mapError fail (List.foldlM _ left parts)
    induction parts generalizing left with
    | nil => rfl
    | cons part parts ih =>
      obtain ⟨op, run⟩ := part
      simp only [List.foldlM_cons]
      cases level run with
      | error fault => rfl
      | ok right => exact ih _

theorem step_of_uncut (additive : Uncut additive? items)
    (multiplicative : Uncut multiplicative? items) :
    step fail operand items = chain fail operand [] 0 items := by
  match items with
  | [] => rw [step, chain]
  | [item] =>
    rw [step, chain]
    cases item.leaf <;> rfl
  | item :: next :: rest =>
    simp only [step, cut_of_uncut additive, cut_of_uncut multiplicative]

section Chain

variable {frames : List (Nat × Expr)} {signs : Nat} {item next : Item} {rest : List Item}

theorem chain_sign (minus : item.operator? = some .sub) :
    chain fail operand frames signs (item :: next :: rest) =
      chain fail operand frames (signs + 1) (next :: rest) := by
  rw [chain.eq_3 _ _ _ _ _ _ (List.cons_ne_nil _ _), if_pos minus]

theorem chain_caret {caret : Item} {after : List Item} (unsigned : item.operator? ≠ some .sub)
    (found : (next :: rest).dropWhile (!·.isCaret) = caret :: after) :
    chain fail operand frames signs (item :: next :: rest) =
      operand (item :: (next :: rest).takeWhile (!·.isCaret)) >>= fun left =>
        chain fail operand ((signs, left) :: frames) 0 after := by
  rw [chain.eq_3 _ _ _ _ _ _ (List.cons_ne_nil _ _), if_neg unsigned]
  split
  · next missing => cases missing.symm.trans found
  · next other after' found' =>
    obtain ⟨rfl, rfl⟩ := List.cons.inj (found'.symm.trans found)
    rfl

theorem chain_noCaret (unsigned : item.operator? ≠ some .sub)
    (missing : (next :: rest).dropWhile (!·.isCaret) = []) :
    chain fail operand frames signs (item :: next :: rest) = .error (fail .noOperator) := by
  rw [chain.eq_3 _ _ _ _ _ _ (List.cons_ne_nil _ _), if_neg unsigned]
  split
  · rfl
  · next found => cases missing.symm.trans found

end Chain

/-- A base is never cut, so the step does not ask for the assembly of any part of it. -/
theorem step_of_base (base : Base items) :
    step fail operand items = (power items).mapError fail := by
  rw [step_of_uncut fail base.uncut.1 base.uncut.2]
  cases base with
  | single item =>
    rw [chain, power]
    cases item.leaf <;> rfl
  | @several item next rest additive multiplicative unsigned unraised =>
    have notHere : ¬next.isCaret := by simpa using unraised next
    rw [chain_noCaret fail unsigned (List.dropWhile_eq_nil_iff.mpr unraised), power,
      if_neg unsigned, if_neg notHere]
    rfl

section Power

variable (bases : ∀ run, Base run → operand run = (power run).mapError fail)

include bases

/-- What the chain gathers in `frames` and `signs` goes on top of the power that is left. -/
theorem chain_eq_power (additive : Uncut additive? items)
    (multiplicative : Uncut multiplicative? items) (frames : List (Nat × Expr)) (signs : Nat) :
    chain fail operand frames signs items =
      ((fun e => raise frames (negate signs e)) <$> power items).mapError fail := by
  fun_induction power items generalizing frames signs with
  | case1 =>
    rw [chain]
    rfl
  | case2 item =>
    rw [chain.eq_2]
    cases item.leaf <;> rfl
  | case3 item next rest minus ih =>
    rw [chain_sign fail minus, ih additive.tail multiplicative.tail]
    cases power (next :: rest) with
    | error fault => rfl
    | ok e => simp [negate_neg]
  | case4 item next rest unsigned caret ih =>
    have found : (next :: rest).dropWhile (!·.isCaret) = next :: rest := by simp [caret]
    have before : (next :: rest).takeWhile (!·.isCaret) = [] := by simp [caret]
    rw [chain_caret fail unsigned found, before, bases [item] (.single item), power]
    cases item.leaf with
    | error fault => rfl
    | ok left =>
      have behind := ih additive.tail.tail multiplicative.tail.tail ((signs, left) :: frames) 0
      cases read : power rest <;> rw [read] at behind <;> exact behind
  | case5 item next rest unsigned caret =>
    cases found : (next :: rest).dropWhile (!·.isCaret) with
    | nil =>
      rw [chain_noCaret fail unsigned found]
      rfl
    | cons other after =>
      -- several items before the `^` are a base, but no tree
      have base := base_takeWhile additive multiplicative unsigned
      have before : (next :: rest).takeWhile (!·.isCaret) =
          next :: rest.takeWhile (!·.isCaret) := by simp [caret]
      rw [before] at base
      rw [chain_caret fail unsigned found, before, bases _ base, power, if_neg unsigned,
        if_neg caret]
      rfl

/-- A run that neither level cuts is a power, if bases are assembled as powers. -/
theorem step_eq_power (additive : Uncut additive? items)
    (multiplicative : Uncut multiplicative? items) :
    step fail operand items = (power items).mapError fail := by
  rw [step_of_uncut fail additive multiplicative,
    chain_eq_power fail bases additive multiplicative]
  cases power items <;> rfl

end Power

/-- A run that is not cut at `+` and `-` is a product, if its factors are assembled as powers. -/
theorem step_eq_product
    (powers : ∀ run, Uncut additive? run → Uncut multiplicative? run →
      operand run = (power run).mapError fail)
    (additive : Uncut additive? items) :
    step fail operand items = (product items).mapError fail := by
  by_cases multiplicative : Uncut multiplicative? items
  · rw [product_of_uncut multiplicative]
    exact step_eq_power fail (fun run base => powers run base.uncut.1 base.uncut.2) additive
      multiplicative
  · obtain ⟨item, next, rest, first, part, parts, rfl, cutting⟩ := exists_cut multiplicative
    have inner := cut_uncut multiplicative? item (next :: rest)
    have inside := cut_parts multiplicative? item (next :: rest)
    rw [cutting] at inner inside
    have within : item :: first <+: item :: next :: rest :=
      List.cons_prefix_cons.mpr ⟨rfl, inside.1⟩
    simp only [step, cut_of_uncut additive, cutting]
    rw [product, split, cutting, ← joinLeft_mapError]
    apply joinLeft_congr
    · exact powers _ (additive.part within.isInfix) inner.1
    · intro p mem
      have between := (inside.2 p mem).trans (List.suffix_cons item _).isInfix
      exact powers _ (additive.part between) (inner.2 p mem)

/-- Every run is a sum, if its operands are assembled as products. -/
theorem step_eq_sum
    (products : ∀ run, Uncut additive? run → operand run = (product run).mapError fail) :
    step fail operand items = (sum items).mapError fail := by
  by_cases additive : Uncut additive? items
  · rw [sum_of_uncut additive]
    refine step_eq_product fail (fun run additive multiplicative => ?_) additive
    rw [products run additive, product_of_uncut multiplicative]
  · obtain ⟨item, next, rest, first, part, parts, rfl, cutting⟩ := exists_cut additive
    have inner := cut_uncut additive? item (next :: rest)
    rw [cutting] at inner
    simp only [step, cutting]
    rw [sum, split, cutting, ← joinLeft_mapError]
    exact joinLeft_congr (products _ inner.1) fun p mem => products _ (inner.2 p mem)

end Step

theorem assemble_of_base {items : List Item} (base : Base items) :
    assemble items = (power items).mapError id :=
  (assemble_eq items).trans (step_of_base id base)

/-- Assembly is the sum level: neither the operands of a level nor the bases of powers need the
levels above them. -/
theorem assemble_eq_sum (items : List Item) : assemble items = sum items := by
  have powers (run : List Item) (additive : Uncut additive? run)
      (multiplicative : Uncut multiplicative? run) : assemble run = (power run).mapError id :=
    (assemble_eq run).trans
      (step_eq_power id (fun _ => assemble_of_base) additive multiplicative)
  have products (run : List Item) (additive : Uncut additive? run) :
      assemble run = (product run).mapError id :=
    (assemble_eq run).trans (step_eq_product id powers additive)
  rw [assemble_eq, step_eq_sum id products]
  cases sum items <;> rfl

theorem assemble_of_uncut {items : List Item} (additive : Uncut additive? items)
    (multiplicative : Uncut multiplicative? items) : assemble items = power items := by
  rw [assemble_eq_sum, sum_of_uncut additive, product_of_uncut multiplicative]

theorem leaf_error {item : Item} {fault : Fault} (failed : item.leaf = .error fault) :
    ∃ t, fault = .notALeaf t := by
  unfold leaf at failed
  split at failed
  · cases failed
  · split at failed <;> cases failed
    exact ⟨_, rfl⟩

theorem joinParts_error {operand : List Item → Except Fault Expr} {left : Expr}
    {parts : List (BinaryOp × List Item)} {fault : Fault}
    (failed : joinParts operand left parts = .error fault) :
    ∃ part, operand part = .error fault := by
  fun_induction joinParts operand left parts with
  | case1 => cases failed
  | case2 left op part parts ih =>
    obtain failed | ⟨right, _, later⟩ := bind_eq_error.mp failed
    · exact ⟨part, failed⟩
    · exact ih right later

theorem joinLeft_error {operand : List Item → Except Fault Expr} {first : List Item}
    {parts : List (BinaryOp × List Item)} {fault : Fault}
    (failed : joinLeft operand first parts = .error fault) :
    ∃ part, operand part = .error fault := by
  rw [joinLeft_eq] at failed
  obtain failed | ⟨left, _, later⟩ := bind_eq_error.mp failed
  · exact ⟨first, failed⟩
  · exact joinParts_error later

theorem power_error {items : List Item} {fault : Fault} (failed : power items = .error fault) :
    fault = .missingOperand ∨ fault = .noOperator ∨ ∃ t, fault = .notALeaf t := by
  fun_induction power items with
  | case1 =>
    cases failed
    exact .inl rfl
  | case2 item => exact .inr (.inr (leaf_error failed))
  | case3 item next rest minus ih => exact ih (map_eq_error.mp failed)
  | case4 item next rest unsigned caret ih =>
    obtain failed | ⟨base, _, failed⟩ := bind_eq_error.mp failed
    · exact .inr (.inr (leaf_error failed))
    · obtain failed | ⟨exponent, _, failed⟩ := bind_eq_error.mp failed
      · exact ih failed
      · cases failed
  | case5 item next rest unsigned caret =>
    cases failed
    exact .inr (.inl rfl)

theorem assemble_error {items : List Item} {fault : Fault}
    (failed : assemble items = .error fault) :
    fault = .missingOperand ∨ fault = .noOperator ∨ ∃ t, fault = .notALeaf t := by
  rw [assemble_eq_sum] at failed
  obtain ⟨part, failed⟩ := joinLeft_error failed
  obtain ⟨part, failed⟩ := joinLeft_error failed
  exact power_error failed

end Formula.Item
