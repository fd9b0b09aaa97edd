import Formula.Proofs.Expr.ExponentialForm
import Formula.Proofs.Reading.Likeness

/-!
What of a token counts. Main statement: the tree of a list of tokens and the kind of its fault
depend on the kinds of the tokens, on the numbers of number tokens and on the names of name tokens
only.
-/

namespace Formula

open Outcome

/-- Tokens that agree in what counts: in their kind, in the number of a number token up to a
relation of numbers, and in the text of a name. -/
structure Token.Agrees (value : Number → Number → Prop) (t t' : Token) : Prop where
  kind : t.kind = t'.kind
  number : t.kind = .number → Option.Rel value t.number t'.number
  name : t.kind = .name → t.text = t'.text

namespace Expr

/-- Trees that differ at most in their numbers, and there by related ones. -/
inductive Matches (value : Number → Number → Prop) : Expr → Expr → Prop where
  | number {x y : Number} (same : value x y) : Matches value (.number x) (.number y)
  | var (name : String) : Matches value (.var name) (.var name)
  | pi : Matches value .pi .pi
  | euler : Matches value .euler .euler
  | binary (op : BinaryOp) {left left' right right' : Expr} (sameLeft : Matches value left left')
    (sameRight : Matches value right right') :
    Matches value (.binary op left right) (.binary op left' right')
  | unary (op : UnaryOp) {operand operand' : Expr} (same : Matches value operand operand') :
    Matches value (.unary op operand) (.unary op operand')

variable {value : Number → Number → Prop} {e e' : Expr}

theorem Matches.euler_iff (same : Matches value e e') : e = .euler ↔ e' = .euler := by
  cases same <;> simp

theorem Matches.eq (same : Matches Eq e e') : e = e' := by
  induction same with
  | number same => rw [same]
  | binary op _ _ sameLeft sameRight => rw [sameLeft, sameRight]
  | unary op _ same => rw [same]
  | _ => rfl

theorem Matches.same (same : Matches (fun x y => x.same y) e e') : e.same e' := by
  induction same with
  | number same => exact same
  | binary op _ _ sameLeft sameRight => simp [sameLeft, sameRight]
  | unary op _ same => simp [same]
  | _ => simp [Expr.same]

theorem Matches.exponentialForm (same : Matches value e e') :
    Matches value e.exponentialForm e'.exponentialForm := by
  induction same with
  | @binary op left left' right right' _ _ sameLeft sameRight =>
    by_cases power : op = .pow ∧ left.exponentialForm = .euler
    · obtain ⟨rfl, base⟩ := power
      have base' := sameLeft.euler_iff.mp base
      rw [exponentialForm_of_power base, exponentialForm_of_power base']
      exact .unary .exp sameRight
    · have power' : ¬(op = .pow ∧ left'.exponentialForm = .euler) := by
        rwa [← sameLeft.euler_iff]
      rw [exponentialForm_binary_of_ne power, exponentialForm_binary_of_ne power']
      exact .binary op sameLeft sameRight
  | unary op _ same => exact .unary op same
  | number same => exact .number same
  | var name => exact .var name
  | pi => exact .pi
  | euler => exact .euler

end Expr

/-- Tokens are related that agree in what counts, and faults of one kind. -/
def Likeness.relevant (value : Number → Number → Prop) : Likeness where
  token := Token.Agrees value
  fault f f' := f.kind = f'.kind
  tree := Expr.Matches value
  kind same := same.kind
  leaf {t t'} same := by
    obtain ⟨kind, text, number, pos⟩ := t
    obtain ⟨kind', text', number', pos'⟩ := t'
    obtain ⟨rfl, sameNumber, sameName⟩ := same
    cases kind with
    | number =>
      cases sameNumber rfl with
      | some same => exact .ok (.number same)
      | none => exact .error rfl
    | name =>
      obtain rfl : text = text' := sameName rfl
      exact .ok (.var text)
    | pi => exact .ok .pi
    | euler => exact .ok .euler
    | _ => exact .error rfl
  missingArgument _ := rfl
  unmatchedClosing _ := rfl
  refl _ := rfl
  binary op _ _ _ _ := .binary op
  unary op _ _ := .unary op

namespace Expr

/-- Tokens that agree in kind, and in number or name where they are numbers or names, have the same
tree, or faults of the same kind. If the numbers agree as values only, so do the trees. -/
theorem ofTokens_agree (limit : Int) {tokens tokens' : List Token} :
    (List.Forall₂ (Token.Agrees Eq) tokens tokens' →
      Alike (fun f f' => f.kind = f'.kind) Eq (ofTokens limit tokens) (ofTokens limit tokens')) ∧
    (List.Forall₂ (Token.Agrees fun x y => x.same y) tokens tokens' →
      Alike (fun f f' => f.kind = f'.kind) (fun e e' => e.same e')
        (ofTokens limit tokens) (ofTokens limit tokens')) := by
  have alike (value : Number → Number → Prop)
      (agree : List.Forall₂ (Token.Agrees value) tokens tokens') :
      Alike (fun f f' => f.kind = f'.kind) (Matches value) (ofTokens limit tokens)
        (ofTokens limit tokens') :=
    (Likeness.relevant value).ofTokensWithin limit _ (fun _ _ same => same.exponentialForm) agree
  constructor
  · intro agree
    exact (alike _ agree).mono fun _ _ same => same.eq
  · intro agree
    exact (alike _ agree).mono fun _ _ same => same.same

/-- Tokens of the kinds of `0*sin(x)`, with texts, places and numbers that do not count. -/
def zeroTimesSine (zero : Number) (text : String) (stray : Option Number) (pos : Int) :
    List Token :=
  [⟨.number, text, some zero, pos⟩, ⟨.operator .mul, text, stray, pos⟩,
    ⟨.function .sin, text, stray, pos⟩, ⟨.opening, text, stray, pos⟩, ⟨.name, "x", stray, pos⟩,
    ⟨.closing, text, stray, pos⟩]

theorem zeroTimesSine_agrees {value : Number → Number → Prop} {zero zero' : Number}
    (same : value zero zero') (text text' : String) (stray stray' : Option Number)
    (pos pos' : Int) :
    List.Forall₂ (Token.Agrees value) (zeroTimesSine zero text stray pos)
      (zeroTimesSine zero' text' stray' pos') :=
  .cons ⟨rfl, fun _ => .some same, nofun⟩ <| .cons ⟨rfl, nofun, nofun⟩ <|
    .cons ⟨rfl, nofun, nofun⟩ <| .cons ⟨rfl, nofun, nofun⟩ <|
    .cons ⟨rfl, nofun, fun _ => rfl⟩ <| .cons ⟨rfl, nofun, nofun⟩ .nil

theorem ofTokens_agree_zeroTimesSine :
    let sine := Expr.unary (.apply .sin) (.var "x")
    let product := Expr.binary .mul (.number (.zero false)) sine
    ofTokens 1 (zeroTimesSine (.zero false) "0" none 0) = .ok product ∧
      ofTokens 1 (zeroTimesSine (.zero false) "?" (some .nan) (-3)) = .ok product ∧
      ∃ e, ofTokens 1 (zeroTimesSine (.zero true) "?" (some .nan) (-3)) = .ok e ∧
        product.same e := by
  intro sine product
  have read : ofTokens 1 (zeroTimesSine (.zero false) "0" none 0) = .ok product := by decide +kernel
  have zeros : (Number.zero false).same (.zero true) := rfl
  have identical := (ofTokens_agree 1).1
    (zeroTimesSine_agrees (Eq.refl (Number.zero false)) "0" "?" none (some .nan) 0 (-3))
  have equal := (ofTokens_agree 1).2
    (zeroTimesSine_agrees zeros "0" "?" none (some .nan) 0 (-3))
  obtain ⟨e, readAgain, rfl⟩ := identical.exists_ok read
  exact ⟨read, readAgain, equal.exists_ok read⟩

end Expr

end Formula
