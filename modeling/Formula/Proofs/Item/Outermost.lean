import Formula.Proofs.Item.Groups
import Formula.Proofs.Reading.Groups

/-!
The outermost groups of a list of tokens. They open where no parenthesis is open, and they close
before the first closing parenthesis that has no partner.
-/

namespace Formula

namespace Token

variable {tokens front rest before : List Token} {closing : Token}

theorem balanced_single {t : Token} (plain : t.level = 0) : Balanced [t] :=
  (balanced_cons plain).mpr balanced_nil

theorem balanced_whole {opening : Token} {contents : List Token}
    (isOpening : opening.kind = .opening) (isClosing : closing.kind = .closing)
    (matched : Balanced contents) : Balanced (opening :: (contents ++ [closing])) :=
  (balanced_group isOpening isClosing matched).mpr balanced_nil

/-- The place of the first closing parenthesis without a partner. -/
def unmatched? (tokens : List Token) : Option Nat :=
  (List.range tokens.length).find? fun place => opened (tokens.take (place + 1)) < 0

theorem unmatched?_eq_none : unmatched? tokens = none ↔ 0 ≤ lowest tokens := by
  rw [unmatched?, List.find?_range_eq_none, le_lowest_iff]
  constructor
  · intro none beginning first
    rw [List.prefix_iff_eq_take.mp first]
    cases length : beginning.length with
    | zero => simp
    | succ place =>
      have inside : place < tokens.length := by
        have := first.length_le
        omega
      simpa using none place inside
  · intro low place _
    simpa using low _ (List.take_prefix (place + 1) tokens)

theorem unmatched?_of_balanced (isClosing : closing.kind = .closing) (matched : Balanced before)
    (after : List Token) : unmatched? (before ++ closing :: after) = some before.length := by
  rw [unmatched?, List.find?_range_eq_some]
  refine ⟨?_, ?_, ?_⟩
  · have here : opened (before ++ [closing]) < 0 := by
      simp only [opened_append, opened_cons, opened_nil, matched.1, level_of_closing isClosing]
      omega
    simpa [List.take_length_add_append] using here
  · simp
  · intro place less
    have low := le_lowest_iff.mp matched.2 _ (List.take_prefix (place + 1) before)
    rw [List.take_append_of_le_length less]
    simpa using low

theorem unmatched?_eq_some {place : Nat} : unmatched? tokens = some place ↔
    ∃ before closing after, tokens = before ++ closing :: after ∧ closing.kind = .closing ∧
      Balanced before ∧ before.length = place := by
  constructor
  · intro found
    have below : lowest tokens < 0 := by
      by_contra low
      rw [unmatched?_eq_none.mpr (by omega)] at found
      cases found
    obtain ⟨before, closing, after, rfl, isClosing, matched⟩ :=
      exists_closing (Int.le_refl 0) below
    rw [unmatched?_of_balanced isClosing matched after] at found
    exact ⟨before, closing, after, rfl, isClosing, matched, Option.some.inj found⟩
  · intro split
    obtain ⟨before, closing, after, rfl, isClosing, matched, rfl⟩ := split
    exact unmatched?_of_balanced isClosing matched after

theorem unmatched?_append (matched : Balanced front) (rest : List Token) :
    unmatched? (front ++ rest) = (unmatched? rest).map (front.length + ·) := by
  cases found : unmatched? rest with
  | none =>
    have low := unmatched?_eq_none.mp found
    apply unmatched?_eq_none.mpr
    rw [lowest_append, matched.1]
    exact Int.le_min.mpr ⟨matched.2, by omega⟩
  | some place =>
    obtain ⟨before, closing, after, rfl, isClosing, inner, rfl⟩ := unmatched?_eq_some.mp found
    rw [← List.append_assoc, unmatched?_of_balanced isClosing (matched.append inner)]
    simp

theorem balanced_iff_unmatched? :
    Balanced tokens ↔ unmatched? tokens = none ∧ opened tokens = 0 := by
  rw [unmatched?_eq_none, Balanced, and_comm]

/-- The parentheses do not match, for the reason that the fault gives. -/
inductive Mismatch (tokens : List Token) : Fault → Prop
  | unopened {place : Nat} {closing : Token} (found : unmatched? tokens = some place)
    (there : tokens[place]? = some closing) : Mismatch tokens (.unmatchedClosing closing.pos)
  | unclosed (none : unmatched? tokens = none) (more : 0 < opened tokens) :
    Mismatch tokens .unmatchedOpening

theorem Mismatch.not_balanced {fault : Fault} (mismatch : Mismatch tokens fault) :
    ¬Balanced tokens := by
  intro balanced
  obtain ⟨none, ends⟩ := balanced_iff_unmatched?.mp balanced
  cases mismatch with
  | unopened found =>
    rw [none] at found
    cases found
  | unclosed _ more => omega

theorem Mismatch.append {fault : Fault} (mismatch : Mismatch rest fault)
    (matched : Balanced front) : Mismatch (front ++ rest) fault := by
  have places := unmatched?_append matched rest
  cases mismatch with
  | @unopened place _ found there =>
    rw [found] at places
    have later : (front ++ rest)[front.length + place]? = rest[place]? := by
      rw [List.getElem?_append_right (Nat.le_add_right _ _), Nat.add_sub_cancel_left]
    exact .unopened places (later.trans there)
  | unclosed none more =>
    rw [none] at places
    apply Mismatch.unclosed places
    rw [opened_append, matched.1]
    omega

end Token

namespace Piece

/-- The scan finds a fault exactly in the parentheses that do not match. -/
theorem ofTokens_fault (tokens : List Token) :
    (ofTokens tokens).2 = none ∧ Token.Balanced tokens ∨
      ∃ fault, (ofTokens tokens).2 = some fault ∧ Token.Mismatch tokens fault := by
  induction tokens using Token.groups_induction with
  | nil => exact .inl ⟨rfl, Token.balanced_nil⟩
  | plain t rest plain ih =>
    rw [ofTokens_plain plain, Token.balanced_cons plain]
    apply ih.imp_right
    intro mismatched
    obtain ⟨fault, found, mismatch⟩ := mismatched
    exact ⟨fault, found, mismatch.append (Token.balanced_single plain)⟩
  | group opening contents closing rest isOpening isClosing matched _ ih =>
    rw [ofTokens_group isOpening isClosing matched,
      Token.balanced_group isOpening isClosing matched]
    apply ih.imp_right
    intro mismatched
    obtain ⟨fault, found, mismatch⟩ := mismatched
    have behind := mismatch.append (Token.balanced_whole isOpening isClosing matched)
    rw [List.cons_append, List.append_assoc, List.singleton_append] at behind
    exact ⟨fault, found, behind⟩
  | unclosed opening rest isOpening low =>
    rw [ofTokens_unclosed isOpening low]
    have below := Token.lowest_le_opened rest
    refine .inr ⟨_, rfl, .unclosed (Token.unmatched?_eq_none.mpr ?_) ?_⟩
    · simp only [Token.lowest_cons, Token.level_of_opening isOpening]
      omega
    · simp only [Token.opened_cons, Token.level_of_opening isOpening]
      omega
  | unopened closing rest isClosing =>
    rw [ofTokens_unopened isClosing]
    have found := Token.unmatched?_of_balanced isClosing Token.balanced_nil rest
    exact .inr ⟨_, rfl, .unopened found rfl⟩

end Piece

namespace Group

variable {tokens front rest : List Token}

/-- The tokens of the group with its parentheses. -/
def written (g : Group tokens) : List Token := g.opening :: (g.contents ++ [g.closing])

theorem balanced_written (g : Group tokens) : Token.Balanced g.written :=
  Token.balanced_whole g.isOpening g.isClosing g.matched

theorem eq_written (g : Group tokens) : tokens = g.before ++ (g.written ++ g.after) := by
  conv => lhs; rw [g.tokens_eq]
  simp [written]

/-- A group is one of the outermost exactly if what stands before it is balanced. -/
theorem balanced_before_iff (g : Group tokens) : Token.Balanced g.before ↔
    Token.opened g.before = 0 ∧ ∀ place ∈ Token.unmatched? tokens, g.closes < place := by
  constructor
  · intro matched
    refine ⟨matched.1, ?_⟩
    intro place found
    obtain ⟨before, closing, after, same, isClosing, balanced, rfl⟩ :=
      Token.unmatched?_eq_some.mp found
    by_contra early
    have unmatched : before ++ [closing] <+: tokens := ⟨after, by simp [same]⟩
    have closed : g.before ++ g.written <+: tokens :=
      ⟨g.after, by rw [List.append_assoc, ← g.eq_written]⟩
    have first : before ++ [closing] <+: g.before ++ g.written := by
      apply List.prefix_of_prefix_length_le unmatched closed
      simp only [closes] at early
      simp only [List.length_append, written, List.length_cons, List.length_nil]
      omega
    have low := Token.le_lowest_iff.mp (matched.append g.balanced_written).2 _ first
    simp only [Token.opened_append, Token.opened_cons, Token.opened_nil, balanced.1,
      Token.level_of_closing isClosing] at low
    omega
  · intro outer
    obtain ⟨ends, late⟩ := outer
    refine ⟨ends, ?_⟩
    by_contra below
    -- a closing parenthesis without partner would stand in front of the group
    obtain ⟨before, closing, after, same, isClosing, matched⟩ :=
      Token.exists_closing (Int.le_refl 0) (by omega : Token.lowest g.before < -0)
    have split : tokens = before ++ closing :: (after ++ (g.written ++ g.after)) := by
      conv => lhs; rw [g.eq_written, same]
      simp
    have := late before.length (split ▸ Token.unmatched?_of_balanced isClosing matched _)
    simp only [closes, same, List.length_append, List.length_cons] at this
    omega

/-- A group of the tokens behind a beginning, as one of all tokens. -/
def behind (same : tokens = front ++ rest) (g : Group rest) : Group tokens where
  before := front ++ g.before
  opening := g.opening
  contents := g.contents
  closing := g.closing
  after := g.after
  isOpening := g.isOpening
  isClosing := g.isClosing
  matched := g.matched
  tokens_eq := by rw [same, List.append_assoc, ← g.tokens_eq]

theorem closes_behind (same : tokens = front ++ rest) (g : Group rest) :
    (g.behind same).closes = front.length + g.closes := by
  simp only [closes, behind, List.length_append]
  omega

theorem exists_behind (same : tokens = front ++ rest) (g : Group tokens)
    (first : front <+: g.before) : ∃ h : Group rest, h.behind same = g := by
  obtain ⟨before, opening, contents, closing, after, isOpening, isClosing, matched, split⟩ := g
  obtain ⟨before, rfl⟩ := first
  have later : rest = before ++ opening :: (contents ++ closing :: after) := by
    rw [same, List.append_assoc] at split
    exact List.append_cancel_left split
  exact ⟨⟨before, opening, contents, closing, after, isOpening, isClosing, matched, later⟩, rfl⟩

section Beginning

variable {opening closing t : Token} {contents : List Token}

/-- The group at the beginning of a list. -/
def first (isOpening : opening.kind = .opening) (isClosing : closing.kind = .closing)
    (matched : Token.Balanced contents) : Group (opening :: (contents ++ closing :: rest)) :=
  ⟨[], opening, contents, closing, rest, isOpening, isClosing, matched, rfl⟩

theorem begins_plain (plain : t.level = 0) (g : Group (t :: rest)) : [t] <+: g.before := by
  obtain ⟨before, opening, contents, closing, after, isOpening, isClosing, matched, same⟩ := g
  cases before with
  | nil =>
    obtain ⟨rfl, -⟩ := List.cons.inj same
    rw [Token.level_of_opening isOpening] at plain
    cases plain
  | cons first before =>
    obtain ⟨rfl, -⟩ := List.cons.inj same
    exact List.prefix_append [t] before

/-- Any other group opens behind the first one, for within it a parenthesis is open. -/
theorem begins_group (isOpening : opening.kind = .opening) (isClosing : closing.kind = .closing)
    (matched : Token.Balanced contents) (g : Group (opening :: (contents ++ closing :: rest)))
    (outer : Token.Balanced g.before) :
    g = first isOpening isClosing matched ∨ opening :: (contents ++ [closing]) <+: g.before := by
  obtain ⟨before, opening', inner, closing', after, isOpening', isClosing', matched', same⟩ := g
  cases before with
  | nil =>
    obtain ⟨rfl, later⟩ := List.cons.inj same
    obtain ⟨rfl, rfl, rfl⟩ := Token.balanced_unique isClosing isClosing' matched matched' later
    exact .inl rfl
  | cons o before =>
    obtain ⟨rfl, later⟩ := List.cons.inj same
    right
    rcases List.append_eq_append_iff.mp later with ⟨more, rfl, behind⟩ | ⟨more, rfl, behind⟩
    · cases more with
      | nil =>
        obtain ⟨rfl, -⟩ := List.cons.inj behind
        rw [isClosing] at isOpening'
        cases isOpening'
      | cons c more =>
        obtain ⟨rfl, -⟩ := List.cons.inj behind
        exact ⟨more, by simp⟩
    · have low := Token.le_lowest_iff.mp matched.2 before (List.prefix_append before more)
      have ends : Token.opened (opening :: before) = 0 := outer.1
      simp only [Token.opened_cons, Token.level_of_opening isOpening] at ends
      omega

theorem not_balanced_of_unclosed (isOpening : opening.kind = .opening)
    (low : 0 ≤ Token.lowest rest) (g : Group (opening :: rest)) : ¬Token.Balanced g.before := by
  intro outer
  obtain ⟨before, opening', inner, closing, after, isOpening', isClosing, matched, same⟩ := g
  cases before with
  | nil =>
    obtain ⟨rfl, rfl⟩ := List.cons.inj same
    have := Token.lowest_nonpos after
    simp only [Token.lowest_append, Token.lowest_cons, matched.1, Token.level_of_closing isClosing]
      at low
    omega
  | cons o before =>
    obtain ⟨rfl, rfl⟩ := List.cons.inj same
    have := Token.le_lowest_iff.mp low before (List.prefix_append before _)
    have ends : Token.opened (opening :: before) = 0 := outer.1
    simp only [Token.opened_cons, Token.level_of_opening isOpening] at ends
    omega

theorem not_balanced_of_unopened (isClosing : closing.kind = .closing)
    (g : Group (closing :: rest)) : ¬Token.Balanced g.before := by
  intro outer
  obtain ⟨before, opening, inner, closing', after, isOpening, isClosing', matched, same⟩ := g
  cases before with
  | nil =>
    obtain ⟨rfl, -⟩ := List.cons.inj same
    rw [isClosing] at isOpening
    cases isOpening
  | cons c before =>
    obtain ⟨rfl, -⟩ := List.cons.inj same
    have low : 0 ≤ Token.lowest (closing :: before) := outer.2
    have := Token.lowest_nonpos before
    simp only [Token.lowest_cons, Token.level_of_closing isClosing] at low
    omega

end Beginning

end Group

/-- The groups that open where no parenthesis is open and close before the first unmatched closing
parenthesis, in their order. -/
structure Outermost {tokens : List Token} (groups : List (Group tokens)) : Prop where
  ordered : groups.Pairwise fun g h => g.closes < h.closes
  mem_iff : ∀ g : Group tokens, g ∈ groups ↔
    Token.opened g.before = 0 ∧ ∀ place ∈ Token.unmatched? tokens, g.closes < place

namespace Outermost

variable {tokens front rest : List Token} {own : List (Group tokens)} {groups : List (Group rest)}

theorem of_balanced_before (ordered : own.Pairwise fun g h => g.closes < h.closes)
    (mem_iff : ∀ g : Group tokens, g ∈ own ↔ Token.Balanced g.before) : Outermost own where
  ordered := ordered
  mem_iff g := by rw [mem_iff, g.balanced_before_iff]

theorem mem_iff_balanced (outermost : Outermost own) (g : Group tokens) :
    g ∈ own ↔ Token.Balanced g.before := by
  rw [outermost.mem_iff, g.balanced_before_iff]

theorem nil (noGroup : ∀ g : Group tokens, ¬Token.Balanced g.before) :
    Outermost ([] : List (Group tokens)) := by
  apply of_balanced_before .nil
  intro g
  simp [noGroup g]

/-- The outermost groups are those of a balanced beginning and those behind it. -/
theorem append (outermost : Outermost groups) (same : tokens = front ++ rest)
    (matched : Token.Balanced front) (ordered : own.Pairwise fun g h => g.closes < h.closes)
    (early : ∀ g ∈ own, Token.Balanced g.before ∧ g.closes < front.length)
    (begins : ∀ g : Group tokens, Token.Balanced g.before → g ∈ own ∨ front <+: g.before) :
    Outermost (own ++ groups.map (Group.behind same)) := by
  apply of_balanced_before
  · apply List.pairwise_append.mpr
    refine ⟨ordered, ?_, ?_⟩
    · apply List.pairwise_map.mpr
      apply outermost.ordered.imp
      intro g h less
      rw [Group.closes_behind, Group.closes_behind]
      omega
    · intro g inside h mem
      obtain ⟨h, _, rfl⟩ := List.mem_map.mp mem
      have := (early g inside).2
      rw [Group.closes_behind]
      omega
  · intro g
    rw [List.mem_append, List.mem_map]
    constructor
    · intro mem
      rcases mem with inside | ⟨h, inside, rfl⟩
      · exact (early g inside).1
      · exact matched.append ((outermost.mem_iff_balanced h).mp inside)
    · intro balanced
      rcases begins g balanced with inside | first
      · exact .inl inside
      · obtain ⟨h, rfl⟩ := g.exists_behind same first
        have later : Token.Balanced h.before := matched.append_iff.mp balanced
        exact .inr ⟨h, (outermost.mem_iff_balanced h).mpr later, rfl⟩

section Beginning

variable {opening closing t : Token} {contents : List Token}

theorem plain (plain : t.level = 0) (outermost : Outermost groups)
    (same : t :: rest = [t] ++ rest) : Outermost (groups.map (Group.behind same)) := by
  apply outermost.append same (Token.balanced_single plain) .nil
  · simp
  · intro g _
    exact .inr (g.begins_plain plain)

theorem group (isOpening : opening.kind = .opening) (isClosing : closing.kind = .closing)
    (matched : Token.Balanced contents) (outermost : Outermost groups)
    (same : opening :: (contents ++ closing :: rest) = opening :: (contents ++ [closing]) ++ rest) :
    Outermost (Group.first isOpening isClosing matched :: groups.map (Group.behind same)) := by
  have whole := Token.balanced_whole isOpening isClosing matched
  apply outermost.append same whole (List.pairwise_singleton _ _)
  · intro g mem
    rw [List.mem_singleton.mp mem]
    exact ⟨Token.balanced_nil, by simp [Group.closes, Group.first]⟩
  · intro g outer
    rw [List.mem_singleton]
    exact g.begins_group isOpening isClosing matched outer

end Beginning

end Outermost

end Formula
