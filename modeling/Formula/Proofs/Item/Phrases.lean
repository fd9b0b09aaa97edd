import Formula.Proofs.Item.Levels

/-!
Runs that a level of assembly accepts, put together from operands and operators.
-/

namespace Formula.Item

open Outcome

variable {op? : Item → Item → Option BinaryOp} {items more : List Item}

theorem additive_of_noOperator {item : Item} (operand : item.isOperator = false)
    (previous : Item) : additive? previous item = none := by
  have : item.operator? = none := by simpa [isOperator] using operand
  simp [additive?, this]

theorem multiplicative_of_noOperator {item : Item} (operand : item.isOperator = false)
    (previous : Item) : multiplicative? previous item = none := by
  have : item.operator? = none := by simpa [isOperator] using operand
  simp [multiplicative?, this]

/-- Behind items without an operator to cut at, a cut goes on from the last of them. -/
theorem cut_append {previous last : Item} (uncut : Uncut op? (previous :: items))
    (ends : (previous :: items).getLast? = some last) :
    cut op? previous (items ++ more) =
      (items ++ (cut op? last more).1, (cut op? last more).2) := by
  induction items generalizing previous with
  | nil =>
    obtain rfl : previous = last := by simpa using ends
    rfl
  | cons item items ih =>
    obtain ⟨here, later⟩ := List.isChain_cons_cons.mp uncut
    rw [List.getLast?_cons_cons] at ends
    simp only [List.cons_append, cut, ih later ends, here]

theorem split_append {last : Item} (uncut : Uncut op? items)
    (ends : items.getLast? = some last) :
    split op? (items ++ more) = (items ++ (cut op? last more).1, (cut op? last more).2) := by
  cases items with
  | nil => cases ends
  | cons item items => simp only [List.cons_append, split, cut_append uncut ends]

theorem uncut_append {previous last : Item} (uncut : Uncut op? (previous :: items))
    (ends : (previous :: items).getLast? = some last) (behind : Uncut op? (last :: more)) :
    Uncut op? (previous :: (items ++ more)) := by
  induction items generalizing previous with
  | nil =>
    obtain rfl : previous = last := by simpa using ends
    exact behind
  | cons item items ih =>
    obtain ⟨here, later⟩ := List.isChain_cons_cons.mp uncut
    rw [List.getLast?_cons_cons] at ends
    exact List.isChain_cons_cons.mpr ⟨here, ih later ends⟩

theorem joinParts_ok {operand : List Item → Except Fault Expr}
    {parts : List (BinaryOp × List Item)} (reads : ∀ part ∈ parts, ∃ e, operand part.2 = .ok e)
    (left : Expr) : ∃ e, joinParts operand left parts = .ok e := by
  induction parts generalizing left with
  | nil => exact ⟨left, rfl⟩
  | cons part parts ih =>
    obtain ⟨right, read⟩ := reads part (by simp)
    obtain ⟨e, joined⟩ := ih (fun part mem => reads part (by simp [mem])) (.binary part.1 left right)
    exact ⟨e, bind_eq_ok.mpr ⟨right, read, joined⟩⟩

/-- A run that a level accepts, also behind a sign. -/
structure Phrase (read : List Item → Except Fault Expr) (items : List Item) : Prop where
  reads : ∃ e, read items = .ok e
  signed : ∀ sign : Item, sign.isOperator = true → Uncut additive? (sign :: items)
  ends : ∃ last, items.getLast? = some last ∧ last.isOperator = false

/-- Operators of a level, each with a run that the level below accepts. -/
inductive Repetition (op? : Item → Item → Option BinaryOp)
    (read : List Item → Except Fault Expr) : List Item → Prop where
  | nil : Repetition op? read []
  | cons {operator : Item} {op : BinaryOp} {items more : List Item}
    (names : operator.operator? = some op)
    (here : ∀ previous : Item, previous.isOperator = false → op? previous operator = some op)
    (operand : Phrase read items) (uncut : Uncut op? (operator :: items))
    (rest : Repetition op? read more) : Repetition op? read (operator :: (items ++ more))

variable {read : List Item → Except Fault Expr}

theorem Phrase.ends_cons (operand : Phrase read items) (previous : Item) :
    ∃ last, (previous :: items).getLast? = some last ∧ last.isOperator = false := by
  obtain ⟨last, ends, noOperator⟩ := operand.ends
  exact ⟨last, by rw [List.getLast?_cons, ends, Option.getD_some], noOperator⟩

theorem Phrase.ends_append (operand : Phrase read items)
    (rest : ∀ last ∈ more.getLast?, last.isOperator = false) :
    ∃ last, (items ++ more).getLast? = some last ∧ last.isOperator = false := by
  obtain ⟨last, ends, noOperator⟩ := operand.ends
  rw [List.getLast?_append, ends]
  cases behind : more.getLast? with
  | none => exact ⟨last, rfl, noOperator⟩
  | some other => exact ⟨other, rfl, rest other behind⟩

/-- A repetition is cut at its operators. -/
theorem Repetition.cuts (rest : Repetition op? read more) :
    ∃ parts, (∀ previous : Item, previous.isOperator = false → cut op? previous more = ([], parts)) ∧
      ∀ part ∈ parts, ∃ e, read part.2 = .ok e := by
  induction rest with
  | nil => exact ⟨[], fun _ _ => rfl, by simp⟩
  | @cons operator op items more names here operand uncut rest ih =>
    obtain ⟨parts, cuts, reads⟩ := ih
    obtain ⟨last, ends, noOperator⟩ := operand.ends_cons operator
    have behind : cut op? operator (items ++ more) = (items, parts) := by
      rw [cut_append uncut ends, cuts last noOperator, List.append_nil]
    refine ⟨(op, items) :: parts, ?_, ?_⟩
    · intro previous before
      simp only [cut, here previous before, behind]
    · rintro part (_ | ⟨_, mem⟩)
      · exact operand.reads
      · exact reads part mem

theorem Repetition.ends (rest : Repetition op? read more) :
    ∀ last ∈ more.getLast?, last.isOperator = false := by
  induction rest with
  | nil => simp
  | @cons operator op items more names here operand uncut rest ih =>
    obtain ⟨last, ends, noOperator⟩ := operand.ends_append ih
    rw [List.getLast?_cons, ends, Option.getD_some]
    rintro other ⟨⟩
    exact noOperator

/-- The factors behind a product's first one hold nothing that a sum is cut at. -/
theorem Repetition.signed (rest : Repetition multiplicative? read more) (previous : Item) :
    Uncut additive? (previous :: more) := by
  induction rest generalizing previous with
  | nil => exact .singleton _
  | @cons operator op items more names here operand uncut rest ih =>
    have level := (operator_of_multiplicative (here (.tree .pi) rfl)).2
    have notAdditive : additive? previous operator = none := by
      rcases level with rfl | rfl <;> simp [additive?, names]
    obtain ⟨last, ends, _⟩ := operand.ends_cons operator
    have sign : operator.isOperator = true := by simp [isOperator, names]
    exact List.isChain_cons_cons.mpr
      ⟨notAdditive, uncut_append (operand.signed operator sign) ends (ih last)⟩

theorem Phrase.joined (first : Phrase read items) (uncut : Uncut op? items)
    (rest : Repetition op? read more) :
    ∃ e, joinLeft read (split op? (items ++ more)).1 (split op? (items ++ more)).2 = .ok e := by
  obtain ⟨parts, cuts, readParts⟩ := rest.cuts
  obtain ⟨last, ends, operand⟩ := first.ends
  obtain ⟨left, readLeft⟩ := first.reads
  obtain ⟨e, joined⟩ := joinParts_ok readParts left
  refine ⟨e, ?_⟩
  rw [split_append uncut ends, cuts last operand, List.append_nil, joinLeft_eq]
  exact bind_eq_ok.mpr ⟨left, readLeft, joined⟩

/-- What a factor of a product can be. -/
structure Operand (items : List Item) : Prop extends Phrase power items where
  uncut : ∀ previous : Item, Uncut multiplicative? (previous :: items)

theorem Operand.product (first : Operand items) (rest : Repetition multiplicative? power more) :
    Phrase product (items ++ more) where
  reads := first.joined (first.uncut (.tree .pi)).tail rest
  signed := by
    intro sign isOperator
    obtain ⟨last, ends, _⟩ := first.ends_cons sign
    exact uncut_append (first.signed sign isOperator) ends (rest.signed last)
  ends := first.ends_append rest.ends

theorem Phrase.sum (first : Phrase Item.product items) (rest : Repetition additive? Item.product more) :
    ∃ e, Item.sum (items ++ more) = .ok e := by
  have minus : (Item.token ⟨.operator .sub, "-", none, 0⟩).isOperator = true := rfl
  exact first.joined (first.signed _ minus).tail rest

variable {operator : Item} {op : BinaryOp}

theorem isOperator_of_operator (names : operator.operator? = some op) :
    operator.isOperator = true := by
  simp [isOperator, names]

theorem Phrase.term (operand : Phrase Item.product items) (names : operator.operator? = some op)
    (level : op = .add ∨ op = .sub) (rest : Repetition additive? Item.product more) :
    Repetition additive? Item.product (operator :: (items ++ more)) := by
  have sign := isOperator_of_operator names
  have here (previous : Item) (before : previous.isOperator = false) :
      additive? previous operator = some op := by
    rcases level with rfl | rfl <;> simp [additive?, names, before]
  exact .cons names here operand (operand.signed operator sign) rest

theorem Operand.factor (operand : Operand items) (names : operator.operator? = some op)
    (level : op = .mul ∨ op = .div) (rest : Repetition multiplicative? power more) :
    Repetition multiplicative? power (operator :: (items ++ more)) := by
  have here (previous : Item) : multiplicative? previous operator = some op := by
    rcases level with rfl | rfl <;> simp [multiplicative?, names]
  exact .cons names (fun previous _ => here previous) operand.toPhrase (operand.uncut operator) rest

/-- A single item that is a leaf. -/
theorem Operand.leaf {item : Item} {e : Expr} (isLeaf : item.leaf = .ok e)
    (noOperator : item.isOperator = false) : Operand [item] where
  reads := ⟨e, isLeaf⟩
  signed := by
    intro sign _
    have notCut := additive_of_noOperator noOperator sign
    exact List.isChain_cons_cons.mpr ⟨notCut, .singleton _⟩
  ends := ⟨item, rfl, noOperator⟩
  uncut := by
    intro previous
    have notCut := multiplicative_of_noOperator noOperator previous
    exact List.isChain_cons_cons.mpr ⟨notCut, .singleton _⟩

theorem Operand.negative (operand : Operand items) (isMinus : operator.operator? = some .sub) :
    Operand (operator :: items) where
  reads := by
    obtain ⟨e, read⟩ := operand.reads
    obtain ⟨last, ends, _⟩ := operand.ends
    cases items with
    | nil => cases ends
    | cons next rest =>
      rw [power, if_pos isMinus, read]
      exact ⟨_, rfl⟩
  signed := by
    intro sign isOperator
    have notCut : additive? sign operator = none := by simp [additive?, isMinus, isOperator]
    have minus := isOperator_of_operator isMinus
    exact List.isChain_cons_cons.mpr ⟨notCut, operand.signed operator minus⟩
  ends := operand.ends_cons operator
  uncut := by
    intro previous
    have notCut : multiplicative? previous operator = none := by simp [multiplicative?, isMinus]
    exact List.isChain_cons_cons.mpr ⟨notCut, operand.uncut operator⟩

theorem Operand.raised {left : Item} {e : Expr} (exponent : Operand items)
    (isLeaf : left.leaf = .ok e) (noOperator : left.isOperator = false)
    (isCaret : operator.operator? = some .pow) : Operand (left :: operator :: items) where
  reads := by
    obtain ⟨right, read⟩ := exponent.reads
    have unsigned : left.operator? ≠ some .sub := by
      intro named
      simp [isOperator, named] at noOperator
    have caret : operator.isCaret = true := by simp [Item.isCaret, isCaret]
    rw [power, if_neg unsigned, if_pos caret, isLeaf, read]
    exact ⟨_, rfl⟩
  signed := by
    intro sign _
    have notCut := additive_of_noOperator noOperator sign
    have notCutNext : additive? left operator = none := by simp [additive?, isCaret]
    have caret := isOperator_of_operator isCaret
    exact List.isChain_cons_cons.mpr
      ⟨notCut, List.isChain_cons_cons.mpr ⟨notCutNext, exponent.signed operator caret⟩⟩
  ends := by
    obtain ⟨last, ends, behind⟩ := exponent.ends_cons operator
    exact ⟨last, by rw [List.getLast?_cons_cons, ends], behind⟩
  uncut := by
    intro previous
    have notCut := multiplicative_of_noOperator noOperator previous
    have notCutNext : multiplicative? left operator = none := by simp [multiplicative?, isCaret]
    exact List.isChain_cons_cons.mpr
      ⟨notCut, List.isChain_cons_cons.mpr ⟨notCutNext, exponent.uncut operator⟩⟩

end Formula.Item
