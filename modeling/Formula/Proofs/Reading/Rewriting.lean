import Formula.Proofs.Grammar.Completeness
import Formula.Proofs.Reading.Likeness

/-!
When powers of e are rewritten. Reading brings every group into exponential form as soon as the
group is read, and the tree around it later. Main statement: doing it once at the end gives the
same.
-/

namespace Formula.Expr

open Outcome

/-- Reads tokens with powers of e left as they are, in the groups too; `room` levels may still be
entered. -/
def rawWithin (limit : Int) : Nat → List Token → Except Fault Expr
  | 0, _ => .error (.tooDeep limit)
  | room + 1, tokens => Item.level (rawWithin limit room) tokens

/-- The tree of a list of tokens before any power of e is rewritten. -/
def ofTokensRaw (limit : Int) (tokens : List Token) : Except Fault Expr :=
  rawWithin limit (limit + 1).toNat tokens

/-- Trees are related that have the same exponential form. -/
def sameForm : Likeness where
  token := Eq
  fault := Eq
  tree e e' := e.exponentialForm = e'.exponentialForm
  kind same := congrArg Token.kind same
  leaf := by
    intro t t' same
    subst same
    exact .refl (fun _ => rfl) (fun e => Eq.refl e.exponentialForm) _
  missingArgument same := by rw [same]
  unmatchedClosing same := by rw [same]
  refl _ := rfl
  binary op _ _ _ _ sameLeft sameRight := exponentialForm_binary op sameLeft sameRight
  unary op _ _ same := exponentialForm_unary op same

theorem ofTokensWithin_eq_raw (limit : Int) (room : Nat) (tokens : List Token) :
    ofTokensWithin limit room tokens = exponentialForm <$> rawWithin limit room tokens := by
  induction room generalizing tokens with
  | zero => rfl
  | succ room ih =>
    have groups (part part' : List Token) (same : List.Forall₂ sameForm.token part part') :
        Alike sameForm.fault sameForm.tree (ofTokensWithin limit room part)
          (rawWithin limit room part') := by
      obtain rfl : part = part' := List.forall₂_eq_eq_eq ▸ same
      rw [ih part]
      -- a group that is in exponential form already is brought into it again
      cases rawWithin limit room part with
      | error fault => exact .error rfl
      | ok e => exact .ok (exponentialForm_idem e)
    have self : List.Forall₂ sameForm.token tokens tokens := List.forall₂_same.mpr fun _ _ => rfl
    rw [ofTokensWithin_level, rawWithin]
    exact (Likeness.level groups self).map_eq

/-- Bringing every group into exponential form as it is read is the same as doing it once, with
the whole tree: the same tokens are read, with the same tree, and the others have the same fault.
In particular a base in parentheses that is e makes a power of e. -/
theorem ofTokens_eq_exponentialForm (limit : Int) :
    (∀ tokens, ofTokens limit tokens = exponentialForm <$> ofTokensRaw limit tokens) ∧
    ∀ (base : Derivation .atom) (caret : Token) (exponent : Derivation .unary),
      base.tree = .euler → caret.kind = .operator .pow →
      Token.nesting (base.tokens ++ caret :: exponent.tokens) ≤ limit →
        ofTokens limit (base.tokens ++ caret :: exponent.tokens) =
          .ok (.unary .exp exponent.tree.exponentialForm) := by
  constructor
  · intro tokens
    exact ofTokensWithin_eq_raw limit _ tokens
  · intro base caret exponent isEuler isCaret enough
    let whole : Derivation .sum := .single (.unsigned (.raised base caret isCaret exponent))
    have tokens : whole.tokens = base.tokens ++ caret :: exponent.tokens :=
      Derivation.single_tokens _
    have tree : whole.tree = .binary .pow .euler exponent.tree := by
      rw [← isEuler]
      rfl
    rw [← tokens] at enough ⊢
    rw [whole.ofTokens_tokens enough, tree]
    rfl

/-- The derivation of `((e))`. -/
def groupedEuler : Derivation .atom :=
  let euler : Derivation .atom := .literal ⟨.euler, "e", none, 2⟩ .euler (.euler rfl)
  let group : Derivation .atom :=
    .group ⟨.opening, "(", none, 1⟩ rfl (.single euler.bare) ⟨.closing, ")", none, 3⟩ rfl
  .group ⟨.opening, "(", none, 0⟩ rfl (.single group.bare) ⟨.closing, ")", none, 4⟩ rfl

/-- The derivation of `-x`. -/
def negatedName : Derivation .unary :=
  let name : Derivation .atom := .literal ⟨.name, "x", none, 7⟩ (.var "x") (.name rfl)
  .negative ⟨.operator .sub, "-", none, 6⟩ rfl name.bare

theorem ofTokens_groupedEuler :
    let caret : Token := ⟨.operator .pow, "^", none, 5⟩
    let tokens := groupedEuler.tokens ++ caret :: negatedName.tokens
    Token.nesting tokens ≤ 2 ∧
      ofTokens 2 tokens = .ok (.unary .exp (.unary .neg (.var "x"))) ∧
      ∃ raw, ofTokensRaw 2 tokens = .ok raw ∧
        raw.exponentialForm = .unary .exp (.unary .neg (.var "x")) := by
  intro caret tokens
  have enough : Token.nesting tokens ≤ 2 := by decide
  obtain ⟨once, powers⟩ := ofTokens_eq_exponentialForm 2
  have read := powers groupedEuler caret negatedName rfl rfl enough
  exact ⟨enough, read, map_eq_ok.mp ((once tokens).symm.trans read)⟩

end Formula.Expr
