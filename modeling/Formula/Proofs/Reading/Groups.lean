import Mathlib.Order.WellFounded
import Mathlib.Tactic.IntervalCases
import Formula.Proofs.Reading.Limit

/-!
The groups of a list of tokens, at every level, and the fault that they decide: of the groups
that are no formulas the one that closes first.
-/

namespace Formula

/-- A parenthesised group of a list of tokens, at any level. -/
structure Group (tokens : List Token) where
  before : List Token
  opening : Token
  contents : List Token
  closing : Token
  after : List Token
  isOpening : opening.kind = .opening
  isClosing : closing.kind = .closing
  matched : Token.Balanced contents
  tokens_eq : tokens = before ++ opening :: (contents ++ closing :: after)

namespace Group

/-- Where the group's closing parenthesis stands. -/
def closes {tokens : List Token} (g : Group tokens) : Nat :=
  g.before.length + g.contents.length + 1

/-- A group of a part of the tokens is one of the tokens. -/
def within {part : List Token} (g : Group part) (left right : List Token) :
    Group (left ++ (part ++ right)) where
  before := left ++ g.before
  opening := g.opening
  contents := g.contents
  closing := g.closing
  after := g.after ++ right
  isOpening := g.isOpening
  isClosing := g.isClosing
  matched := g.matched
  tokens_eq := by
    conv => lhs; rw [g.tokens_eq]
    simp

theorem closes_within {part : List Token} (g : Group part) (left right : List Token) :
    (g.within left right).closes = left.length + g.closes := by
  simp only [closes, within, List.length_append]
  omega

theorem getElem_closes {tokens : List Token} (g : Group tokens) :
    tokens[g.closes]? = some g.closing := by
  have index : g.closes = g.before.length + (g.contents.length + 1) := by
    simp only [closes]
    omega
  have place : (g.before ++ g.opening :: (g.contents ++ g.closing :: g.after))[g.closes]? =
      some g.closing := by
    rw [index]
    simp
  rwa [← g.tokens_eq] at place

theorem not_nil (g : Group []) : False := by
  have := g.tokens_eq
  simp at this

/-- No group begins with a token that is no parenthesis. -/
theorem of_plain {t : Token} {rest : List Token} (plain : t.level = 0) (g : Group (t :: rest)) :
    ∃ h : Group rest, h.contents = g.contents ∧ g.closes = h.closes + 1 := by
  obtain ⟨before, opening, contents, closing, after, isOpening, isClosing, matched, same⟩ := g
  cases before with
  | nil =>
    obtain ⟨rfl, -⟩ := List.cons.inj same
    rw [Token.level_of_opening isOpening] at plain
    cases plain
  | cons first before =>
    obtain ⟨rfl, later⟩ := List.cons.inj same
    refine ⟨⟨before, opening, contents, closing, after, isOpening, isClosing, matched, later⟩,
      rfl, ?_⟩
    simp only [closes, List.length_cons]
    omega

/-- The groups of a list that begins with a group: that one, those in it, and those behind it. -/
theorem of_group {opening closing : Token} {contents rest : List Token}
    (isClosing : closing.kind = .closing) (matched : Token.Balanced contents)
    (g : Group (opening :: (contents ++ closing :: rest))) :
    (g.contents = contents ∧ g.closes = contents.length + 1) ∨
      (∃ h : Group contents, h.contents = g.contents ∧ g.closes = h.closes + 1) ∨
      ∃ h : Group rest, h.contents = g.contents ∧ g.closes = h.closes + contents.length + 2 := by
  obtain ⟨before, opening', inner, closing', after, isOpening', isClosing', matched', same⟩ := g
  cases before with
  | nil =>
    obtain ⟨rfl, later⟩ := List.cons.inj same
    obtain ⟨rfl, -, -⟩ := Token.balanced_unique isClosing isClosing' matched matched' later
    exact .inl ⟨rfl, by simp [closes]⟩
  | cons first before =>
    obtain ⟨rfl, later⟩ := List.cons.inj same
    have noParenthesisTwice {t : Token} (opens : t.kind = .opening) (shuts : t.kind = .closing) :
        False := by
      rw [opens] at shuts
      cases shuts
    rcases List.append_eq_append_iff.mp later with ⟨more, rfl, behind⟩ | ⟨more, rfl, behind⟩
    · cases more with
      | nil =>
        obtain ⟨rfl, -⟩ := List.cons.inj behind
        exact (noParenthesisTwice isOpening' isClosing).elim
      | cons c more =>
        obtain ⟨rfl, ending⟩ := List.cons.inj behind
        refine .inr (.inr ⟨⟨more, opening', inner, closing', after, isOpening', isClosing',
          matched', ending⟩, rfl, ?_⟩)
        simp only [closes, List.length_cons, List.length_append]
        omega
    · cases more with
      | nil =>
        obtain ⟨rfl, -⟩ := List.cons.inj behind
        exact (noParenthesisTwice isOpening' isClosing).elim
      | cons o more =>
        obtain ⟨rfl, shared⟩ := List.cons.inj behind
        obtain ⟨tail, rfl⟩ :=
          Token.closes_inside isOpening' isClosing matched matched' shared
        refine .inr (.inl ⟨⟨before, opening', inner, closing', tail, isOpening', isClosing',
          matched', rfl⟩, rfl, ?_⟩)
        simp only [closes, List.length_cons]
        omega

/-- The group is no formula, and it closes before all the others that are none. -/
structure FailsFirst (limit : Int) {tokens : List Token} (g : Group tokens) : Prop where
  fails : ∃ fault, Expr.ofTokens limit g.contents = .error fault
  first : ∀ other : Group tokens,
    (∃ fault, Expr.ofTokens limit other.contents = .error fault) → g.closes ≤ other.closes

theorem FailsFirst.of_within {limit : Int} {part tokens : List Token} {g : Group tokens}
    (failing : g.FailsFirst limit) (left right : List Token) (h : Group part)
    (same : h.contents = g.contents) (split : tokens = left ++ (part ++ right))
    (shift : g.closes = left.length + h.closes) : h.FailsFirst limit := by
  subst split
  refine ⟨same ▸ failing.fails, ?_⟩
  intro other fails
  have := failing.first (other.within left right) fails
  rw [closes_within] at this
  omega

/-- The resolution of a balanced list ends with the fault of the group that fails first. -/
theorem FailsFirst.resolve {limit : Int} {tokens : List Token} {g : Group tokens}
    (failing : g.FailsFirst limit) (balanced : Token.Balanced tokens)
    (enough : Token.nesting tokens ≤ limit) {fault : Fault}
    (fails : Expr.ofTokens limit g.contents = .error fault) :
    Item.resolve (Expr.ofTokens limit) tokens = .error fault := by
  induction tokens using Token.groups_induction with
  | nil => exact g.not_nil.elim
  | plain t rest plain ih =>
    obtain ⟨h, same, shift⟩ := g.of_plain plain
    have inherited : h.FailsFirst limit :=
      failing.of_within [t] [] h same (by simp) (by simp; omega)
    rw [Token.balanced_cons plain] at balanced
    rw [Token.nesting_plain plain] at enough
    rw [Item.resolve_plain plain, ih inherited balanced enough (same ▸ fails)]
    rfl
  | group opening contents closing rest isOpening isClosing matched inner later =>
    rw [Token.balanced_group isOpening isClosing matched] at balanced
    rw [Token.nesting_group isOpening isClosing matched] at enough
    rw [Item.resolve_group isOpening isClosing matched]
    obtain ⟨same, _⟩ | ⟨h, same, shift⟩ | ⟨h, same, shift⟩ := g.of_group isClosing matched
    · rw [same] at fails
      rw [fails]
      rfl
    · have inherited : h.FailsFirst limit :=
        failing.of_within [opening] (closing :: rest) h same (by simp) (by simp; omega)
      have resolved := inner inherited matched (by omega) (same ▸ fails)
      rw [Expr.ofTokens_eq (by omega), resolved]
      rfl
    · have inherited : h.FailsFirst limit :=
        failing.of_within (opening :: (contents ++ [closing])) [] h same (by simp)
          (by simp; omega)
      have resolved := later inherited balanced (by omega) (same ▸ fails)
      let whole : Group (opening :: (contents ++ closing :: rest)) :=
        ⟨[], opening, contents, closing, rest, isOpening, isClosing, matched, rfl⟩
      cases read : Expr.ofTokens limit contents with
      | error earlier =>
        have := failing.first whole ⟨earlier, read⟩
        simp only [whole, closes, List.length_nil] at this shift
        omega
      | ok e =>
        rw [resolved]
        rfl
  | unclosed opening rest isOpening low =>
    obtain ⟨ends, _⟩ := balanced
    have := Token.lowest_le_opened rest
    simp only [Token.opened_cons, Token.level_of_opening isOpening] at ends
    omega
  | unopened closing rest isClosing =>
    obtain ⟨_, low⟩ := balanced
    have := Token.lowest_nonpos rest
    simp only [Token.lowest_cons, Token.level_of_closing isClosing] at low
    omega

end Group

namespace Expr

/-- If some group is no formula, the first of these to close decides the fault of the whole. -/
theorem ofTokens_eq_failing_group {tokens : List Token} {limit : Int}
    (balanced : Token.Balanced tokens) (enough : Token.nesting tokens ≤ limit)
    (failing : ∃ g : Group tokens, ∃ fault, ofTokens limit g.contents = .error fault) :
    (∃ g : Group tokens, g.FailsFirst limit) ∧
      ∀ g : Group tokens, g.FailsFirst limit →
        ∃ fault, ofTokens limit g.contents = .error fault ∧
          ofTokens limit tokens = .error fault := by
  constructor
  · obtain ⟨g, fails, least⟩ := (measure Group.closes).wf.has_min
      {g : Group tokens | ∃ fault, ofTokens limit g.contents = .error fault} failing
    exact ⟨g, fails, fun other failsToo => Nat.le_of_not_lt (least other failsToo)⟩
  · intro g first
    obtain ⟨fault, fails⟩ := first.fails
    refine ⟨fault, fails, ?_⟩
    rw [ofTokens_eq enough, first.resolve balanced enough fails]
    rfl

/-- The tokens of `(sin x) + (cos y)`. -/
def twoFaults : List Token :=
  [⟨.opening, "(", none, 0⟩, ⟨.function .sin, "sin", none, 1⟩, ⟨.name, "x", none, 5⟩,
    ⟨.closing, ")", none, 6⟩, ⟨.operator .add, "+", none, 8⟩, ⟨.opening, "(", none, 10⟩,
    ⟨.function .cos, "cos", none, 11⟩, ⟨.name, "y", none, 15⟩, ⟨.closing, ")", none, 16⟩]

theorem ofTokens_twoFaults :
    Token.Balanced twoFaults ∧ Token.nesting twoFaults ≤ 1 ∧
      ofTokens 1 twoFaults = .error (.missingArgument "sin") := by
  have balanced : Token.Balanced twoFaults := by decide
  have enough : Token.nesting twoFaults ≤ 1 := by decide
  let g : Group twoFaults :=
    ⟨[], ⟨.opening, "(", none, 0⟩, [⟨.function .sin, "sin", none, 1⟩, ⟨.name, "x", none, 5⟩],
      ⟨.closing, ")", none, 6⟩, twoFaults.drop 4, rfl, rfl, by decide, rfl⟩
  have fails : ofTokens 1 g.contents = .error (.missingArgument "sin") := rfl
  obtain ⟨_, decides⟩ := ofTokens_eq_failing_group balanced enough ⟨g, _, fails⟩
  -- no parenthesis closes before the third place, so `g` is the first group to fail
  have first : g.FailsFirst 1 := by
    refine ⟨⟨_, fails⟩, ?_⟩
    intro other _
    have place := other.getElem_closes
    have isClosing := other.isClosing
    by_contra earlier
    have : other.closes < 3 := Nat.lt_of_not_le earlier
    interval_cases other.closes <;> simp [twoFaults] at place <;> simp [← place] at isClosing
  obtain ⟨fault, groupFails, wholeFails⟩ := decides g first
  obtain rfl : Fault.missingArgument "sin" = fault :=
    Except.error.inj (fails.symm.trans groupFails)
  exact ⟨balanced, enough, wholeFails⟩

end Expr

end Formula
