import Formula.Proofs.Grammar.Completeness

/-!
Substitution of groups. Main statement: a group counts only through its tree, so other contents
with the same tree can stand in its place, whatever is around it.
-/

namespace Formula

namespace Token

/-- A parenthesis that is open before some tokens, and is closed by them, closes between them. -/
theorem exists_closing_behind {before behind : List Token} (low : 0 ≤ lowest before)
    (closes : lowest (before ++ behind) < 0) :
    ∃ inner closing rest, behind = inner ++ closing :: rest ∧ closing.kind = .closing ∧
      Balanced (before ++ inner) := by
  have nonneg := lowest_le_opened before
  have below : lowest behind < -opened before := by
    rw [lowest_append] at closes
    omega
  obtain ⟨inner, closing, rest, split, isClosing, ends, lowInner⟩ :=
    exists_closing (by omega) below
  refine ⟨inner, closing, rest, split, isClosing, ?_⟩
  simp only [Balanced, opened_append, lowest_append]
  omega

section Group

variable {opening closing : Token} {contents : List Token} (isOpening : opening.kind = .opening)
  (isClosing : closing.kind = .closing) (matched : Balanced contents) (before behind : List Token)

include isOpening isClosing matched

theorem opened_around_group :
    opened (before ++ opening :: (contents ++ closing :: behind)) = opened (before ++ behind) := by
  simp only [opened_append, opened_cons, matched.1, level_of_opening isOpening,
    level_of_closing isClosing]
  omega

theorem lowest_around_group :
    lowest (before ++ opening :: (contents ++ closing :: behind)) = lowest (before ++ behind) := by
  obtain ⟨ends, low⟩ := matched
  have := lowest_nonpos behind
  simp only [lowest_append, lowest_cons, ends, level_of_opening isOpening,
    level_of_closing isClosing]
  omega

theorem balanced_around_group (outer : Balanced (before ++ behind)) :
    Balanced (before ++ opening :: (contents ++ closing :: behind)) := by
  rwa [Balanced, opened_around_group isOpening isClosing matched,
    lowest_around_group isOpening isClosing matched]

end Group

end Token

namespace Expr

variable {limit limit' : Int} {tokens : List Token} {e : Expr}

/-- Tokens that are read under some limit are read under every limit that their nesting does not
exceed. -/
theorem ofTokens_of_ofTokens (read : ofTokens limit' tokens = .ok e)
    (enough : Token.nesting tokens ≤ limit) : ofTokens limit tokens = .ok e := by
  rw [← read]
  exact ofTokensWithin_eq limit' (nesting_lt_iff.mpr enough) (nesting_lt_of_ofTokensWithin read)

theorem balanced_of_ofTokens (read : ofTokens limit tokens = .ok e) : Token.Balanced tokens := by
  obtain ⟨d, rfl, _⟩ := derivation_of_ofTokens read
  exact d.balanced

end Expr

/-- Groups with the same tree make the same items. -/
theorem Item.resolve_substitute {u v : List Token} {opening closing : Token} {e : Expr}
    {limitU limitV limit : Int} (isOpening : opening.kind = .opening)
    (isClosing : closing.kind = .closing) (readU : Expr.ofTokens limitU u = .ok e)
    (readV : Expr.ofTokens limitV v = .ok e) (before behind : List Token)
    (enoughU : Token.nesting (before ++ opening :: (u ++ closing :: behind)) ≤ limit)
    (enoughV : Token.nesting (before ++ opening :: (v ++ closing :: behind)) ≤ limit) :
    resolve (Expr.ofTokens limit) (before ++ opening :: (u ++ closing :: behind)) =
      resolve (Expr.ofTokens limit) (before ++ opening :: (v ++ closing :: behind)) := by
  have matchedU := Expr.balanced_of_ofTokens readU
  have matchedV := Expr.balanced_of_ofTokens readV
  induction before using Token.groups_induction generalizing behind with
  | nil =>
    rw [List.nil_append, Token.nesting_group isOpening isClosing matchedU] at enoughU
    rw [List.nil_append, Token.nesting_group isOpening isClosing matchedV] at enoughV
    have sameU : Expr.ofTokens limit u = .ok e := Expr.ofTokens_of_ofTokens readU (by omega)
    have sameV : Expr.ofTokens limit v = .ok e := Expr.ofTokens_of_ofTokens readV (by omega)
    rw [List.nil_append, List.nil_append, resolve_group isOpening isClosing matchedU,
      resolve_group isOpening isClosing matchedV, sameU, sameV]
  | plain t rest plain ih =>
    simp only [List.cons_append] at enoughU enoughV ⊢
    rw [Token.nesting_plain plain] at enoughU enoughV
    rw [resolve_plain plain, resolve_plain plain, ih behind enoughU enoughV]
  | group first contents last rest opens closes matched _ ih =>
    simp only [List.cons_append, List.append_assoc] at enoughU enoughV ⊢
    rw [Token.nesting_group opens closes matched] at enoughU enoughV
    rw [resolve_group opens closes matched, resolve_group opens closes matched,
      ih behind (by omega) (by omega)]
  | unclosed first rest opens low ih =>
    simp only [List.cons_append] at enoughU enoughV ⊢
    by_cases closed : Token.lowest (rest ++ behind) < 0
    · -- the group lies within one that is closed behind it: the inner lists are read alike
      obtain ⟨inner, last, after, rfl, closes, matched⟩ :=
        Token.exists_closing_behind low closed
      have wholeU :=
        Token.balanced_around_group isOpening isClosing matchedU rest inner matched
      have wholeV :=
        Token.balanced_around_group isOpening isClosing matchedV rest inner matched
      have regroup (w : List Token) :
          first :: (rest ++ opening :: (w ++ closing :: (inner ++ last :: after))) =
            first :: ((rest ++ opening :: (w ++ closing :: inner)) ++ last :: after) := by
        simp
      rw [regroup, Token.nesting_group opens closes wholeU] at enoughU
      rw [regroup, Token.nesting_group opens closes wholeV] at enoughV
      have same := ih inner (by omega) (by omega)
      rw [regroup, regroup, resolve_group opens closes wholeU, resolve_group opens closes wholeV,
        Expr.ofTokens_eq (by omega), Expr.ofTokens_eq (by omega), same]
    · have lowU := Token.lowest_around_group isOpening isClosing matchedU rest behind
      have lowV := Token.lowest_around_group isOpening isClosing matchedV rest behind
      rw [resolve_unclosed opens (by omega), resolve_unclosed opens (by omega)]
  | unopened last rest closes =>
    rw [List.cons_append, List.cons_append, resolve_unopened closes, resolve_unopened closes]

namespace Expr

/-- A group counts only through its tree: with other contents that are read as the same tree the
whole has the same tree or the same fault, also where the tokens around the group are no formula
or leave parentheses without a partner. -/
theorem ofTokens_substitute {u v : List Token} {e : Expr} {limitU limitV limit : Int}
    (readU : ofTokens limitU u = .ok e) (readV : ofTokens limitV v = .ok e)
    {opening closing : Token} (isOpening : opening.kind = .opening)
    (isClosing : closing.kind = .closing) (before behind : List Token)
    (enoughU : Token.nesting (before ++ opening :: (u ++ closing :: behind)) ≤ limit)
    (enoughV : Token.nesting (before ++ opening :: (v ++ closing :: behind)) ≤ limit) :
    ofTokens limit (before ++ opening :: (u ++ closing :: behind)) =
      ofTokens limit (before ++ opening :: (v ++ closing :: behind)) := by
  rw [ofTokens_eq enoughU, ofTokens_eq enoughV,
    Item.resolve_substitute isOpening isClosing readU readV before behind enoughU enoughV]

theorem literal_x : Token.Literal ⟨.name, "x", none, 5⟩ (.var "x") := .name rfl

/-- The derivation of `e^x`. -/
def powerOfE : Derivation .sum :=
  let euler : Derivation .atom := .literal ⟨.euler, "e", none, 3⟩ .euler (.euler rfl)
  let name : Derivation .atom := .literal ⟨.name, "x", none, 5⟩ (.var "x") literal_x
  .single (.unsigned (.raised euler ⟨.operator .pow, "^", none, 4⟩ (Eq.refl (Kind.operator .pow))
    name.bare))

/-- The derivation of `(e^x)`. -/
def groupedPowerOfE : Derivation .sum :=
  .single (Derivation.group ⟨.opening, "(", none, 3⟩ (Eq.refl Kind.opening) powerOfE
    ⟨.closing, ")", none, 6⟩ (Eq.refl Kind.closing)).bare

/-- In `-((` … `)y))` the group may hold `e^x` or `(e^x)`. -/
theorem ofTokens_substitute_powerOfE :
    let opening : Token := ⟨.opening, "(", none, 2⟩
    let closing : Token := ⟨.closing, ")", none, 7⟩
    let before : List Token := [⟨.operator .sub, "-", none, 0⟩, ⟨.opening, "(", none, 1⟩]
    let behind : List Token := [⟨.name, "y", none, 8⟩, ⟨.closing, ")", none, 9⟩,
      ⟨.closing, ")", none, 10⟩]
    ofTokens 0 powerOfE.tokens = .ok (.unary .exp (.var "x")) ∧
      ofTokens 1 groupedPowerOfE.tokens = .ok (.unary .exp (.var "x")) ∧
      ofTokens 3 (before ++ opening :: (powerOfE.tokens ++ closing :: behind)) =
        ofTokens 3 (before ++ opening :: (groupedPowerOfE.tokens ++ closing :: behind)) := by
  intro opening closing before behind
  have readU : ofTokens 0 powerOfE.tokens = .ok (.unary .exp (.var "x")) :=
    powerOfE.ofTokens_tokens (by decide)
  have readV : ofTokens 1 groupedPowerOfE.tokens = .ok (.unary .exp (.var "x")) :=
    groupedPowerOfE.ofTokens_tokens (by decide)
  exact ⟨readU, readV,
    ofTokens_substitute readU readV rfl rfl before behind (by decide) (by decide)⟩

end Expr

end Formula
