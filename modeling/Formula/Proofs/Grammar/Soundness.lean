import Formula.Proofs.Expr.ExponentialForm
import Formula.Proofs.Grammar.Basic
import Formula.Proofs.Reading.Limit

/-!
What is read has a derivation. The items of each step of the reading are followed back to the
tokens that they came from.
-/

namespace Formula

open Outcome

/-- The items cover the tokens: those not read yet stand for themselves, and each tree for a
stretch of tokens. -/
inductive Item.Covers (stands : Expr → List Token → Prop) : List Item → List Token → Prop where
  | nil : Covers stands [] []
  | token (t : Token) {items : List Item} {ts : List Token} (rest : Covers stands items ts) :
    Covers stands (.token t :: items) (t :: ts)
  | tree {e : Expr} {part : List Token} {items : List Item} {ts : List Token}
    (first : stands e part) (rest : Covers stands items ts) :
    Covers stands (.tree e :: items) (part ++ ts)

/-- A tree stands for a group. -/
def Expr.IsGroup (e : Expr) (part : List Token) : Prop :=
  ∃ opening isOpening inner closing isClosing,
    (Derivation.group opening isOpening inner closing isClosing).tokens = part ∧
      inner.tree.exponentialForm = e.exponentialForm

/-- A tree stands for an atom. -/
def Expr.IsAtom (e : Expr) (part : List Token) : Prop :=
  ∃ d : Derivation .atom, d.tokens = part ∧ d.tree.exponentialForm = e.exponentialForm

namespace Item

variable {items out : List Item} {ts : List Token} {e : Expr}

theorem Covers.bindCalls (covers : Covers Expr.IsGroup items ts)
    (bound : bindCalls items = .ok out) : Covers Expr.IsAtom out ts := by
  have atom {e : Expr} {part : List Token} (group : e.IsGroup part) : e.IsAtom part := by
    obtain ⟨opening, isOpening, inner, closing, isClosing, tokens, tree⟩ := group
    exact ⟨.group opening isOpening inner closing isClosing, tokens, tree⟩
  fun_induction Item.bindCalls items generalizing out ts with
  | case1 =>
    cases bound
    cases covers
    exact .nil
  | case2 item =>
    cases bound
    cases covers with
    | token t rest => cases rest; exact .token t .nil
    | tree first rest => cases rest; exact .tree (atom first) .nil
  | case3 e next rest ih =>
    obtain ⟨later, boundLater, rfl⟩ := map_eq_ok.mp bound
    cases covers with
    | tree first covered => exact .tree (atom first) (ih covered boundLater)
  | case4 t rest f argument isFunction ih =>
    obtain ⟨later, boundLater, rfl⟩ := map_eq_ok.mp bound
    cases covers with
    | token _ covered =>
      cases covered with
      | tree first covered =>
        obtain ⟨opening, isOpening, inner, closing, isClosing, rfl, tree⟩ := first
        exact .tree ⟨.call t f isFunction opening isOpening inner closing isClosing, rfl,
          Expr.exponentialForm_unary _ tree⟩ (ih covered boundLater)
  | case5 t rest f isFunction next => cases bound
  | case6 t next rest noCall noToken ih =>
    obtain ⟨later, boundLater, rfl⟩ := map_eq_ok.mp bound
    cases covers with
    | token _ covered => exact .token t (ih covered boundLater)

theorem operator_token {t : Token} {op : BinaryOp} :
    (token t).operator? = some op ↔ t.kind = .operator op := by
  cases kind : t.kind <;> simp [operator?, kind]

theorem operator_eq_some {item : Item} {op : BinaryOp} (named : item.operator? = some op) :
    ∃ t, item = .token t ∧ t.kind = .operator op := by
  cases item with
  | token t => exact ⟨t, rfl, operator_token.mp named⟩
  | tree e => cases named

theorem Covers.leaf {item : Item} (covers : Covers Expr.IsAtom [item] ts)
    (read : item.leaf = .ok e) : e.IsAtom ts := by
  cases covers with
  | token t rest =>
    cases rest
    unfold Item.leaf at read
    simp only at read
    split at read <;> cases read
    · next value kind number => exact ⟨.literal t _ (.number kind number), rfl, rfl⟩
    · next kind => exact ⟨.literal t _ (.name kind), rfl, rfl⟩
    · next kind => exact ⟨.literal t _ (.pi kind), rfl, rfl⟩
    · next kind => exact ⟨.literal t _ (.euler kind), rfl, rfl⟩
  | tree first rest =>
    cases rest
    cases read
    rwa [List.append_nil]

theorem Covers.cons {stands : Expr → List Token → Prop} {item : Item}
    (covers : Covers stands (item :: items) ts) :
    ∃ part rest, ts = part ++ rest ∧ Covers stands [item] part ∧ Covers stands items rest := by
  cases covers with
  | token t rest => exact ⟨[t], _, rfl, .token t .nil, rest⟩
  | tree first rest => exact ⟨_, _, rfl, by simpa using Covers.tree first .nil, rest⟩

theorem Covers.append {stands : Expr → List Token → Prop} {more : List Item} {us : List Token}
    (left : Covers stands items ts) (right : Covers stands more us) :
    Covers stands (items ++ more) (ts ++ us) := by
  induction left with
  | nil => exact right
  | token t rest ih => exact .token t ih
  | tree first rest ih =>
    rw [List.append_assoc]
    exact .tree first ih

/-- A power, and all the minus signs before it. -/
theorem Covers.power (covers : Covers Expr.IsAtom items ts) (read : power items = .ok e) :
    ∃ d : Derivation .unary, d.tokens = ts ∧ d.tree.exponentialForm = e.exponentialForm := by
  fun_induction Item.power items generalizing ts e with
  | case1 => cases read
  | case2 item =>
    obtain ⟨d, tokens, tree⟩ := covers.leaf read
    exact ⟨.unsigned (.base d), tokens, tree⟩
  | case3 item next rest minus ih =>
    obtain ⟨t, rfl, isMinus⟩ := operator_eq_some minus
    obtain ⟨operand, readOperand, rfl⟩ := map_eq_ok.mp read
    cases covers with
    | token _ covered =>
      obtain ⟨d, rfl, tree⟩ := ih covered readOperand
      exact ⟨.negative t isMinus d, rfl, Expr.exponentialForm_unary _ tree⟩
  | case4 item next rest unsigned caret ih =>
    obtain ⟨t, rfl, isCaret⟩ := operator_eq_some (by simpa [isCaret] using caret)
    obtain ⟨left, readLeft, later⟩ := bind_eq_ok.mp read
    obtain ⟨right, readRight, done⟩ := bind_eq_ok.mp later
    cases done
    obtain ⟨part, more, rfl, first, behind⟩ := covers.cons
    cases behind with
    | token _ covered =>
      obtain ⟨a, rfl, treeLeft⟩ := first.leaf readLeft
      obtain ⟨d, rfl, treeRight⟩ := ih covered readRight
      exact ⟨.unsigned (.raised a t isCaret d), rfl,
        Expr.exponentialForm_binary _ treeLeft treeRight⟩
  | case5 item next rest unsigned caret => cases read

section Run

variable {op? : Item → Item → Option BinaryOp} {operand : List Item → Except Fault Expr}
  {Operand : Expr → List Token → Prop} (Rest : Expr → Expr → List Token → Prop)
  (sound : ∀ items ts e, Covers Expr.IsAtom items ts → operand items = .ok e → Operand e ts)
  (done : ∀ left, Rest left left [])
  (more : ∀ previous t op left right e part rest, op? previous (.token t) = some op →
    Operand right part → Rest (.binary op left right) e rest → Rest left e (t :: (part ++ rest)))
  (names : ∀ previous item op, op? previous item = some op → item.operator? = some op)

include sound done more names

/-- If a level reads its operands rightly, and `Rest` is a repetition of them, then this is what
it reads behind the first operand. -/
theorem Covers.cut (previous : Item) (covers : Covers Expr.IsAtom items ts) :
    ∃ part rest, ts = part ++ rest ∧
      Covers Expr.IsAtom (cut op? previous items).1 part ∧
        ∀ left e, joinParts operand left (cut op? previous items).2 = .ok e → Rest left e rest := by
  induction items generalizing previous ts with
  | nil =>
    cases covers
    refine ⟨[], [], rfl, .nil, ?_⟩
    intro left e read
    cases read
    exact done left
  | cons item items ih =>
    obtain ⟨head, tail, rfl, first, behind⟩ := covers.cons
    obtain ⟨part, rest, rfl, covered, joined⟩ := ih item behind
    cases here : op? previous item with
    | none =>
      simp only [Item.cut, here]
      exact ⟨head ++ part, rest, by simp, first.append covered, joined⟩
    | some op =>
      simp only [Item.cut, here]
      refine ⟨[], head ++ (part ++ rest), rfl, .nil, ?_⟩
      intro left e read
      obtain ⟨right, readRight, later⟩ := bind_eq_ok.mp read
      obtain ⟨t, rfl, isOperator⟩ := operator_eq_some (names _ _ _ here)
      cases first with
      | token _ none =>
        cases none
        exact more previous t op left right e part rest here
          (sound _ _ _ covered readRight) (joined _ _ later)

theorem Covers.joinLeft (covers : Covers Expr.IsAtom items ts)
    (read : joinLeft operand (split op? items).1 (split op? items).2 = .ok e) :
    ∃ left part rest, ts = part ++ rest ∧ Operand left part ∧ Rest left e rest := by
  rw [joinLeft_eq] at read
  obtain ⟨left, readLeft, later⟩ := bind_eq_ok.mp read
  cases items with
  | nil =>
    cases covers
    cases later
    exact ⟨e, [], [], rfl, sound _ _ _ .nil readLeft, done e⟩
  | cons item items =>
    obtain ⟨head, tail, rfl, first, behind⟩ := covers.cons
    obtain ⟨part, rest, rfl, covered, joined⟩ := behind.cut Rest sound done more names item
    exact ⟨left, head ++ part, rest, by simp, sound _ _ _ (first.append covered) readLeft,
      joined _ _ later⟩

end Run

theorem Covers.product (covers : Covers Expr.IsAtom items ts) (read : product items = .ok e) :
    ∃ d : Derivation .product, d.tokens = ts ∧ d.tree.exponentialForm = e.exponentialForm := by
  obtain ⟨left, part, rest, rfl, ⟨d, rfl, tree⟩, factors, rfl, joined⟩ := covers.joinLeft
    (fun left e rest => ∃ d : Derivation .factors, d.tokens = rest ∧
      ∀ l : Expr, l.exponentialForm = left.exponentialForm →
        (d.tree l).exponentialForm = e.exponentialForm)
    (fun items ts e covers read => covers.power read)
    (fun left => ⟨.noFactor, rfl, fun l same => same⟩)
    (fun previous t op left right e part rest here ⟨d, tokens, means⟩ ⟨factors, behind, joined⟩ => by
      obtain ⟨isOperator, level⟩ := operator_of_multiplicative here
      refine ⟨.factor t op (operator_token.mp isOperator) level d factors,
        by rw [← tokens, ← behind]; rfl, ?_⟩
      exact fun l same => joined _ (Expr.exponentialForm_binary op same means))
    (fun _ _ _ here => (operator_of_multiplicative here).1) read
  exact ⟨.product d factors, rfl, joined _ tree⟩

theorem Covers.sum (covers : Covers Expr.IsAtom items ts) (read : sum items = .ok e) :
    ∃ d : Derivation .sum, d.tokens = ts ∧ d.tree.exponentialForm = e.exponentialForm := by
  obtain ⟨left, part, rest, rfl, ⟨d, rfl, tree⟩, terms, rfl, joined⟩ := covers.joinLeft
    (fun left e rest => ∃ d : Derivation .terms, d.tokens = rest ∧
      ∀ l : Expr, l.exponentialForm = left.exponentialForm →
        (d.tree l).exponentialForm = e.exponentialForm)
    (fun items ts e covers read => covers.product read)
    (fun left => ⟨.noTerm, rfl, fun l same => same⟩)
    (fun previous t op left right e part rest here ⟨d, tokens, means⟩ ⟨terms, behind, joined⟩ => by
      obtain ⟨isOperator, level⟩ := operator_of_additive here
      refine ⟨.term t op (operator_token.mp isOperator) level d terms,
        by rw [← tokens, ← behind]; rfl, ?_⟩
      exact fun l same => joined _ (Expr.exponentialForm_binary op same means))
    (fun _ _ _ here => (operator_of_additive here).1) read
  exact ⟨.sum d terms, rfl, joined _ tree⟩

theorem Covers.assemble (covers : Covers Expr.IsGroup items ts)
    (bound : Item.bindCalls items = .ok out) (read : assemble out = .ok e) :
    ∃ d : Derivation .sum, d.tokens = ts ∧ d.tree.exponentialForm = e.exponentialForm := by
  rw [assemble_eq_sum] at read
  exact (covers.bindCalls bound).sum read

/-- The items of a resolution cover its tokens; the groups have derivations. -/
theorem covers_of_resolve {limit : Int} (enough : Token.nesting ts ≤ limit)
    (resolved : resolve (Expr.ofTokens limit) ts = .ok items) :
    Covers Expr.IsGroup items ts := by
  induction ts using Token.groups_induction generalizing items with
  | nil =>
    cases resolved
    exact .nil
  | plain t rest plain ih =>
    rw [resolve_plain plain] at resolved
    rw [Token.nesting_plain plain] at enough
    obtain ⟨later, behind, rfl⟩ := map_eq_ok.mp resolved
    exact .token t (ih enough behind)
  | group opening contents closing rest isOpening isClosing matched inner ih =>
    rw [resolve_group isOpening isClosing matched] at resolved
    rw [Token.nesting_group isOpening isClosing matched] at enough
    obtain ⟨e, read, later⟩ := bind_eq_ok.mp resolved
    obtain ⟨behind, resolvedBehind, rfl⟩ := map_eq_ok.mp later
    rw [Expr.ofTokens_eq (by omega)] at read
    obtain ⟨itemsWithin, resolvedWithin, read⟩ := bind_eq_ok.mp read
    obtain ⟨out, bound, read⟩ := bind_eq_ok.mp read
    obtain ⟨raw, assembled, rfl⟩ := map_eq_ok.mp read
    obtain ⟨d, rfl, means⟩ := (inner (by omega) resolvedWithin).assemble bound assembled
    have covered := ih (by omega) resolvedBehind
    have stands : raw.exponentialForm.IsGroup (opening :: (d.tokens ++ [closing])) :=
      ⟨opening, isOpening, d, closing, isClosing, rfl,
        means.trans (Expr.exponentialForm_idem raw).symm⟩
    simpa using Covers.tree stands covered
  | unclosed opening rest isOpening low =>
    rw [resolve_unclosed isOpening low] at resolved
    cases resolved
  | unopened closing rest isClosing =>
    rw [resolve_unopened isClosing] at resolved
    cases resolved

end Item

theorem Expr.derivation_of_ofTokens {limit : Int} {ts : List Token} {e : Expr}
    (read : ofTokens limit ts = .ok e) :
    ∃ d : Derivation .sum, d.tokens = ts ∧ d.tree.exponentialForm = e := by
  have enough := nesting_le_of_ofTokens read
  rw [ofTokens_eq enough] at read
  obtain ⟨items, resolved, read⟩ := bind_eq_ok.mp read
  obtain ⟨out, bound, read⟩ := bind_eq_ok.mp read
  obtain ⟨raw, assembled, rfl⟩ := map_eq_ok.mp read
  exact (Item.covers_of_resolve enough resolved).assemble bound assembled

end Formula
