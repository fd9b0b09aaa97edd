import Mathlib.Data.List.Forall2
import Formula.Proofs.Reading.Limit

/-!
Two readings side by side. If the tokens of one are related to those of the other, and the
relations on tokens, faults and trees fit together, then every step of the reading carries related
input to related output.
-/

namespace Formula

open Outcome

/-- Relations that fit together: related tokens are of one kind and stand for related leaves, they
cause related faults, and trees of the same shape above related trees are related. -/
structure Likeness where
  token : Token → Token → Prop
  fault : Fault → Fault → Prop
  tree : Expr → Expr → Prop
  kind {t t' : Token} (same : token t t') : t.kind = t'.kind
  leaf {t t' : Token} (same : token t t') :
    Alike fault tree (Item.token t).leaf (Item.token t').leaf
  missingArgument {t t' : Token} (same : token t t') :
    fault (.missingArgument t.text) (.missingArgument t'.text)
  unmatchedClosing {t t' : Token} (same : token t t') :
    fault (.unmatchedClosing t.pos) (.unmatchedClosing t'.pos)
  refl (f : Fault) : fault f f
  binary (op : BinaryOp) {left left' right right' : Expr} (sameLeft : tree left left')
    (sameRight : tree right right') : tree (.binary op left right) (.binary op left' right')
  unary (op : UnaryOp) {operand operand' : Expr} (same : tree operand operand') :
    tree (.unary op operand) (.unary op operand')

/-- One level of the reading: groups, calls and operators, and no look at powers of e. -/
def Item.level (group : List Token → Except Fault Expr) (tokens : List Token) :
    Except Fault Expr := do
  let items ← resolve group tokens
  let items ← bindCalls items
  assemble items

theorem Expr.ofTokensWithin_level (limit : Int) (room : Nat) (tokens : List Token) :
    ofTokensWithin limit (room + 1) tokens =
      exponentialForm <$> Item.level (ofTokensWithin limit room) tokens := by
  simp only [ofTokensWithin_succ, Item.level, map_bind]

namespace Likeness

/-- Items are related if they are related tokens or related trees. -/
inductive item (like : Likeness) : Item → Item → Prop where
  | token {t t' : Token} (same : like.token t t') : like.item (.token t) (.token t')
  | tree {e e' : Expr} (same : like.tree e e') : like.item (.tree e) (.tree e')

variable {like : Likeness} {x x' : Item} {items items' : List Item} {ts ts' : List Token}

theorem item_leaf (same : like.item x x') : Alike like.fault like.tree x.leaf x'.leaf := by
  cases same with
  | token same => exact like.leaf same
  | tree same => exact .ok same

theorem item_operator (same : like.item x x') : x'.operator? = x.operator? := by
  cases same with
  | token same => simp only [Item.operator?, like.kind same]
  | tree same => rfl

theorem item_isOperator (same : like.item x x') : x'.isOperator = x.isOperator := by
  simp only [Item.isOperator, item_operator same]

theorem item_isCaret (same : like.item x x') : x'.isCaret = x.isCaret := by
  simp only [Item.isCaret, item_operator same]

theorem bindCalls (same : List.Forall₂ like.item items items') :
    Alike like.fault (List.Forall₂ like.item) (Item.bindCalls items) (Item.bindCalls items') := by
  -- related items are of one kind, so the second run takes the case that the first takes
  fun_induction Item.bindCalls items generalizing items' with
  | case1 =>
    cases same
    exact .ok .nil
  | case2 item =>
    obtain ⟨item', _, first, none, rfl⟩ := List.forall₂_cons_left_iff.mp same
    cases none
    exact .ok (.cons first .nil)
  | case3 e next rest ih =>
    obtain ⟨_, _, first, behind, rfl⟩ := List.forall₂_cons_left_iff.mp same
    cases first with
    | tree sameTree =>
      rw [Item.bindCalls_cons (show (Item.tree _).function? = none from rfl)]
      exact (ih behind).map fun _ _ later => .cons (.tree sameTree) later
  | case4 t rest f argument isFunction ih =>
    obtain ⟨_, _, first, behind, rfl⟩ := List.forall₂_cons_left_iff.mp same
    obtain ⟨_, _, second, more, rfl⟩ := List.forall₂_cons_left_iff.mp behind
    cases first with
    | token sameToken =>
      cases second with
      | tree sameTree =>
        rw [Item.bindCalls_call (like.kind sameToken ▸ isFunction)]
        exact (ih more).map fun _ _ later => .cons (.tree (like.unary _ sameTree)) later
  | case5 t rest f next isFunction =>
    obtain ⟨_, _, first, behind, rfl⟩ := List.forall₂_cons_left_iff.mp same
    obtain ⟨_, _, second, more, rfl⟩ := List.forall₂_cons_left_iff.mp behind
    cases first with
    | token sameToken =>
      cases second with
      | token _ =>
        rw [Item.bindCalls_missing (like.kind sameToken ▸ isFunction)]
        exact .error (like.missingArgument sameToken)
  | case6 t next rest noCall noToken ih =>
    -- a function would be one of the two cases above, whatever follows it
    have other : (Item.token t).function? = none := by
      cases next <;> cases kind : t.kind <;> simp_all [Item.function?]
    obtain ⟨_, _, first, behind, rfl⟩ := List.forall₂_cons_left_iff.mp same
    cases first with
    | @token t t' sameToken =>
      have other' : (Item.token t').function? = none := by
        simpa only [Item.function?, like.kind sameToken] using other
      rw [Item.bindCalls_cons other']
      exact (ih behind).map fun _ _ later => .cons (.token sameToken) later

theorem power (same : List.Forall₂ like.item items items') :
    Alike like.fault like.tree (Item.power items) (Item.power items') := by
  fun_induction Item.power items generalizing items' with
  | case1 =>
    cases same
    exact .error (like.refl _)
  | case2 item =>
    obtain ⟨_, _, first, none, rfl⟩ := List.forall₂_cons_left_iff.mp same
    cases none
    exact item_leaf first
  | case3 item next rest minus ih =>
    obtain ⟨_, _, first, behind, rfl⟩ := List.forall₂_cons_left_iff.mp same
    obtain ⟨_, _, second, more, rfl⟩ := List.forall₂_cons_left_iff.mp behind
    rw [Item.power, if_pos ((item_operator first).trans minus)]
    exact (ih behind).map fun _ _ => like.unary .neg
  | case4 item next rest unsigned caret ih =>
    obtain ⟨_, _, first, behind, rfl⟩ := List.forall₂_cons_left_iff.mp same
    obtain ⟨_, _, second, more, rfl⟩ := List.forall₂_cons_left_iff.mp behind
    rw [Item.power, if_neg (item_operator first ▸ unsigned),
      if_pos ((item_isCaret second).trans caret)]
    refine (item_leaf first).bind fun base base' sameBase => (ih more).bind ?_
    exact fun exponent exponent' sameExponent => .ok (like.binary .pow sameBase sameExponent)
  | case5 item next rest unsigned caret =>
    obtain ⟨_, _, first, behind, rfl⟩ := List.forall₂_cons_left_iff.mp same
    obtain ⟨_, _, second, more, rfl⟩ := List.forall₂_cons_left_iff.mp behind
    rw [Item.power, if_neg (item_operator first ▸ unsigned), if_neg (item_isCaret second ▸ caret)]
    exact .error (like.refl _)

section Level

variable {op? : Item → Item → Option BinaryOp} {operand : List Item → Except Fault Expr}
  (cuts : ∀ {previous previous' item item'}, like.item previous previous' → like.item item item' →
    op? previous' item' = op? previous item)
  (reads : ∀ {part part'}, List.Forall₂ like.item part part' →
    Alike like.fault like.tree (operand part) (operand part'))

/-- Parts of a run are related if their operators are the same and their items related. -/
def part (like : Likeness) (p p' : BinaryOp × List Item) : Prop :=
  p.1 = p'.1 ∧ List.Forall₂ like.item p.2 p'.2

include cuts in
theorem cut (before : like.item x x') (same : List.Forall₂ like.item items items') :
    List.Forall₂ like.item (Item.cut op? x items).1 (Item.cut op? x' items').1 ∧
      List.Forall₂ like.part (Item.cut op? x items).2 (Item.cut op? x' items').2 := by
  induction same generalizing x x' with
  | nil => exact ⟨.nil, .nil⟩
  | @cons item item' rest rest' first _ ih =>
    obtain ⟨inner, parts⟩ := ih first
    simp only [Item.cut, cuts before first]
    cases op? x item with
    | none => exact ⟨.cons first inner, parts⟩
    | some op => exact ⟨.nil, .cons ⟨rfl, inner⟩ parts⟩

include reads in
theorem joinParts {left left' : Expr} (first : like.tree left left')
    {parts parts' : List (BinaryOp × List Item)} (same : List.Forall₂ like.part parts parts') :
    Alike like.fault like.tree (Item.joinParts operand left parts)
      (Item.joinParts operand left' parts') := by
  induction same generalizing left left' with
  | nil => exact .ok first
  | @cons p p' _ _ head _ ih =>
    obtain ⟨op, run⟩ := p
    obtain ⟨op', run'⟩ := p'
    obtain ⟨rfl, runs⟩ := head
    exact (reads runs).bind fun right right' sameRight => ih (like.binary op first sameRight)

include cuts reads in
theorem joinLeft (same : List.Forall₂ like.item items items') :
    Alike like.fault like.tree
      (Item.joinLeft operand (Item.split op? items).1 (Item.split op? items).2)
      (Item.joinLeft operand (Item.split op? items').1 (Item.split op? items').2) := by
  rw [Item.joinLeft_eq, Item.joinLeft_eq]
  cases same with
  | nil => exact (reads .nil).bind fun left left' first => .ok first
  | cons first behind =>
    obtain ⟨inner, parts⟩ := cut cuts first behind
    exact (reads (.cons first inner)).bind fun left left' sameLeft =>
      joinParts reads sameLeft parts

end Level

theorem assemble (same : List.Forall₂ like.item items items') :
    Alike like.fault like.tree (Item.assemble items) (Item.assemble items') := by
  rw [Item.assemble_eq_sum, Item.assemble_eq_sum]
  have additive {previous previous' item item' : Item} (before : like.item previous previous')
      (here : like.item item item') :
      Item.additive? previous' item' = Item.additive? previous item := by
    simp only [Item.additive?, item_operator here, item_isOperator before]
  have multiplicative {previous previous' item item' : Item} (_ : like.item previous previous')
      (here : like.item item item') :
      Item.multiplicative? previous' item' = Item.multiplicative? previous item := by
    simp only [Item.multiplicative?, item_operator here]
  exact joinLeft additive (joinLeft multiplicative power) same

theorem level_eq {t t' : Token} (same : like.token t t') : t'.level = t.level := by
  simp only [Token.level, like.kind same]

theorem lowest_eq (same : List.Forall₂ like.token ts ts') :
    Token.opened ts' = Token.opened ts ∧ Token.lowest ts' = Token.lowest ts := by
  induction same with
  | nil => exact ⟨rfl, rfl⟩
  | cons first _ ih =>
    simp only [Token.opened_cons, Token.lowest_cons, level_eq first, ih, and_self]

theorem resolve {group group' : List Token → Except Fault Expr}
    (reads : ∀ part part', List.Forall₂ like.token part part' →
      Alike like.fault like.tree (group part) (group' part'))
    (same : List.Forall₂ like.token ts ts') :
    Alike like.fault (List.Forall₂ like.item) (Item.resolve group ts)
      (Item.resolve group' ts') := by
  induction ts' using Token.groups_induction generalizing ts with
  | nil =>
    cases same
    exact .ok .nil
  | plain t' rest' plain ih =>
    obtain ⟨t, rest, first, behind, rfl⟩ := List.forall₂_cons_right_iff.mp same
    rw [Item.resolve_plain plain, Item.resolve_plain (level_eq first ▸ plain)]
    exact (ih behind).map fun _ _ later => .cons (.token first) later
  | group opening' contents' closing' rest' isOpening isClosing matched _ ih =>
    obtain ⟨opening, behind, first, same', rfl⟩ := List.forall₂_cons_right_iff.mp same
    -- the first list splits at the lengths of the second, and its middle part is balanced too
    have inner := List.forall₂_take_append _ _ _ same'
    obtain ⟨closing, rest, last, more, ending⟩ :=
      List.forall₂_cons_right_iff.mp (List.forall₂_drop_append _ _ _ same')
    rw [← List.take_append_drop contents'.length behind, ending]
    have matched' : Token.Balanced (behind.take contents'.length) := by
      obtain ⟨ends, low⟩ := lowest_eq inner
      rwa [Token.Balanced, ends, low] at matched
    rw [Item.resolve_group isOpening isClosing matched,
      Item.resolve_group ((like.kind first).trans isOpening) ((like.kind last).trans isClosing)
        matched']
    exact (reads _ _ inner).bind fun _ _ sameTree =>
      (ih more).map fun _ _ later => .cons (.tree sameTree) later
  | unclosed opening' rest' isOpening low =>
    obtain ⟨opening, rest, first, behind, rfl⟩ := List.forall₂_cons_right_iff.mp same
    rw [Item.resolve_unclosed isOpening low,
      Item.resolve_unclosed ((like.kind first).trans isOpening) ((lowest_eq behind).2 ▸ low)]
    exact .error (like.refl _)
  | unopened closing' rest' isClosing =>
    obtain ⟨closing, rest, first, behind, rfl⟩ := List.forall₂_cons_right_iff.mp same
    rw [Item.resolve_unopened isClosing,
      Item.resolve_unopened ((like.kind first).trans isClosing)]
    exact .error (like.unmatchedClosing first)

/-- A level reads related tokens alike, if it does so with the groups in them. -/
theorem level {group group' : List Token → Except Fault Expr}
    (reads : ∀ part part', List.Forall₂ like.token part part' →
      Alike like.fault like.tree (group part) (group' part'))
    (same : List.Forall₂ like.token ts ts') :
    Alike like.fault like.tree (Item.level group ts) (Item.level group' ts') :=
  (resolve reads same).bind fun _ _ resolved =>
    (bindCalls resolved).bind fun _ _ bound => assemble bound

/-- Related tokens are read alike under every limit, if related trees have related exponential
forms. -/
theorem ofTokensWithin (limit : Int) (room : Nat)
    (form : ∀ e e', like.tree e e' → like.tree e.exponentialForm e'.exponentialForm)
    (same : List.Forall₂ like.token ts ts') :
    Alike like.fault like.tree (Expr.ofTokensWithin limit room ts)
      (Expr.ofTokensWithin limit room ts') := by
  induction room generalizing ts ts' with
  | zero => exact .error (like.refl _)
  | succ room ih =>
    rw [Expr.ofTokensWithin_level, Expr.ofTokensWithin_level]
    exact (level (fun _ _ inner => ih inner) same).map form

end Likeness

end Formula
