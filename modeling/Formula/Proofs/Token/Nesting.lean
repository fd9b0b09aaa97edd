import Formula.Token.Basic

/-!
Nesting of parentheses. The parentheses that are open after a beginning of a list of tokens are
counted; the extremes of that count over all beginnings say how deep the list nests and whether
its parentheses match.
-/

namespace Formula.Token

/-- What a token adds to the number of open parentheses. -/
def level (t : Token) : Int :=
  match t.kind with
  | .opening => 1
  | .closing => -1
  | _ => 0

theorem level_of_opening {t : Token} (h : t.kind = .opening) : t.level = 1 := by
  unfold level
  rw [h]

theorem level_of_closing {t : Token} (h : t.kind = .closing) : t.level = -1 := by
  unfold level
  rw [h]

theorem level_eq_zero {t : Token} :
    t.level = 0 ↔ t.kind ≠ .opening ∧ t.kind ≠ .closing := by
  unfold level
  cases t.kind <;> simp

theorem level_of_operator {t : Token} {op : BinaryOp} (h : t.kind = .operator op) :
    t.level = 0 :=
  level_eq_zero.mpr (by simp [h])

theorem level_of_function {t : Token} {f : Elementary} (h : t.kind = .function f) :
    t.level = 0 :=
  level_eq_zero.mpr (by simp [h])

/-- How many parentheses the tokens leave open; closing ones without partner count negative. -/
def opened : List Token → Int
  | [] => 0
  | t :: rest => t.level + opened rest

/-- The largest number of open parentheses after any beginning of the tokens. -/
def nesting : List Token → Int
  | [] => 0
  | t :: rest => max 0 (t.level + nesting rest)

/-- The smallest number of open parentheses after any beginning of the tokens. -/
def lowest : List Token → Int
  | [] => 0
  | t :: rest => min 0 (t.level + lowest rest)

@[simp]
theorem opened_nil : opened [] = 0 := rfl

@[simp]
theorem opened_cons (t : Token) (ts : List Token) : opened (t :: ts) = t.level + opened ts := rfl

@[simp]
theorem nesting_nil : nesting [] = 0 := rfl

@[simp]
theorem nesting_cons (t : Token) (ts : List Token) :
    nesting (t :: ts) = max 0 (t.level + nesting ts) := rfl

@[simp]
theorem lowest_nil : lowest [] = 0 := rfl

@[simp]
theorem lowest_cons (t : Token) (ts : List Token) :
    lowest (t :: ts) = min 0 (t.level + lowest ts) := rfl

/-- Every parenthesis has its partner. -/
def Balanced (ts : List Token) : Prop := opened ts = 0 ∧ 0 ≤ lowest ts

instance (ts : List Token) : Decidable (Balanced ts) := inferInstanceAs (Decidable (_ ∧ _))

theorem nesting_nonneg (ts : List Token) : 0 ≤ nesting ts := by
  cases ts <;> simp only [nesting_nil, nesting_cons] <;> omega

theorem lowest_nonpos (ts : List Token) : lowest ts ≤ 0 := by
  cases ts <;> simp only [lowest_nil, lowest_cons] <;> omega

theorem opened_append (ts us : List Token) : opened (ts ++ us) = opened ts + opened us := by
  induction ts with
  | nil => simp
  | cons t ts ih =>
    simp only [List.cons_append, opened_cons, ih]
    omega

theorem nesting_append (ts us : List Token) :
    nesting (ts ++ us) = max (nesting ts) (opened ts + nesting us) := by
  induction ts with
  | nil =>
    have := nesting_nonneg us
    simp only [List.nil_append, nesting_nil, opened_nil]
    omega
  | cons t ts ih =>
    simp only [List.cons_append, nesting_cons, opened_cons, ih]
    omega

theorem lowest_append (ts us : List Token) :
    lowest (ts ++ us) = min (lowest ts) (opened ts + lowest us) := by
  induction ts with
  | nil =>
    have := lowest_nonpos us
    simp only [List.nil_append, lowest_nil, opened_nil]
    omega
  | cons t ts ih =>
    simp only [List.cons_append, lowest_cons, opened_cons, ih]
    omega

theorem nesting_filter (ts : List Token) :
    nesting (ts.filter (·.level != 0)) = nesting ts := by
  induction ts with
  | nil => rfl
  | cons t ts ih =>
    have := nesting_nonneg ts
    by_cases plain : t.level = 0
    · simp only [List.filter_cons, plain, bne_self_eq_false, Bool.false_eq_true, if_false, ih,
        nesting_cons]
      omega
    · have kept : (t.level != 0) = true := bne_iff_ne.mpr plain
      rw [List.filter_cons, if_pos kept, nesting_cons, nesting_cons, ih]

theorem opened_le_nesting (ts : List Token) : opened ts ≤ nesting ts := by
  induction ts with
  | nil => simp
  | cons t ts ih =>
    simp only [opened_cons, nesting_cons]
    omega

theorem lowest_le_opened (ts : List Token) : lowest ts ≤ opened ts := by
  induction ts with
  | nil => simp
  | cons t ts ih =>
    simp only [opened_cons, lowest_cons]
    omega

theorem nesting_le_iff {ts : List Token} {n : Int} :
    nesting ts ≤ n ↔ ∀ beginning, beginning <+: ts → opened beginning ≤ n := by
  constructor
  · rintro bound beginning ⟨rest, rfl⟩
    have := opened_le_nesting beginning
    rw [nesting_append] at bound
    omega
  · intro bound
    induction ts generalizing n with
    | nil => exact bound [] List.prefix_rfl
    | cons t ts ih =>
      have zero := bound [] List.nil_prefix
      have below : nesting ts ≤ n - t.level := by
        apply ih
        intro beginning first
        have := bound (t :: beginning) (List.cons_prefix_cons.mpr ⟨rfl, first⟩)
        simp only [opened_cons] at this
        omega
      simp only [opened_nil] at zero
      simp only [nesting_cons]
      omega

theorem le_lowest_iff {ts : List Token} {n : Int} :
    n ≤ lowest ts ↔ ∀ beginning, beginning <+: ts → n ≤ opened beginning := by
  constructor
  · rintro bound beginning ⟨rest, rfl⟩
    have := lowest_le_opened beginning
    rw [lowest_append] at bound
    omega
  · intro bound
    induction ts generalizing n with
    | nil => exact bound [] List.prefix_rfl
    | cons t ts ih =>
      have zero := bound [] List.nil_prefix
      have below : n - t.level ≤ lowest ts := by
        apply ih
        intro beginning first
        have := bound (t :: beginning) (List.cons_prefix_cons.mpr ⟨rfl, first⟩)
        simp only [opened_cons] at this
        omega
      simp only [opened_nil] at zero
      simp only [lowest_cons]
      omega

theorem balanced_iff {ts : List Token} :
    Balanced ts ↔ opened ts = 0 ∧ ∀ beginning, beginning <+: ts → 0 ≤ opened beginning :=
  and_congr_right fun _ => le_lowest_iff

theorem balanced_nil : Balanced [] := ⟨rfl, Int.le_refl 0⟩

theorem balanced_cons {t : Token} {ts : List Token} (plain : t.level = 0) :
    Balanced (t :: ts) ↔ Balanced ts := by
  have := lowest_nonpos ts
  simp only [Balanced, opened_cons, lowest_cons]
  omega

theorem Balanced.append {ts us : List Token} (left : Balanced ts) (right : Balanced us) :
    Balanced (ts ++ us) := by
  obtain ⟨end1, low1⟩ := left
  obtain ⟨end2, low2⟩ := right
  simp only [Balanced, opened_append, lowest_append]
  omega

theorem Balanced.append_iff {ts us : List Token} (left : Balanced ts) :
    Balanced (ts ++ us) ↔ Balanced us := by
  obtain ⟨ends, low⟩ := left
  have := lowest_nonpos us
  simp only [Balanced, opened_append, lowest_append]
  omega

theorem Balanced.nesting_append {ts : List Token} (matched : Balanced ts) (us : List Token) :
    nesting (ts ++ us) = max (nesting ts) (nesting us) := by
  rw [Token.nesting_append, matched.1, Int.zero_add]

theorem nesting_plain {t : Token} {ts : List Token} (plain : t.level = 0) :
    nesting (t :: ts) = nesting ts := by
  have := nesting_nonneg ts
  simp only [nesting_cons]
  omega

section Group

variable {opening closing : Token} {contents rest : List Token}
  (isOpening : opening.kind = .opening) (isClosing : closing.kind = .closing)
  (matched : Balanced contents)

include isOpening isClosing matched

theorem balanced_group :
    Balanced (opening :: (contents ++ closing :: rest)) ↔ Balanced rest := by
  obtain ⟨ends, low⟩ := matched
  have := lowest_nonpos rest
  simp only [Balanced, opened_cons, lowest_cons, opened_append, lowest_append,
    level_of_opening isOpening, level_of_closing isClosing]
  omega

theorem nesting_group :
    nesting (opening :: (contents ++ closing :: rest)) =
      max (1 + nesting contents) (nesting rest) := by
  have := nesting_nonneg contents
  have := nesting_nonneg rest
  simp only [nesting_cons, nesting_append, matched.1, level_of_opening isOpening,
    level_of_closing isClosing]
  omega

end Group

/-- The first closing parenthesis behind balanced tokens that is not one of theirs has one place
only. -/
theorem balanced_unique {contents contents' rest rest' : List Token} {closing closing' : Token}
    (isClosing : closing.kind = .closing) (isClosing' : closing'.kind = .closing)
    (matched : Balanced contents) (matched' : Balanced contents')
    (same : contents ++ closing :: rest = contents' ++ closing' :: rest') :
    contents = contents' ∧ closing = closing' ∧ rest = rest' := by
  have shorter {xs ys : List Token} {c : Token} (closes : c.kind = .closing)
      (inner : Balanced xs) (outer : Balanced (xs ++ c :: ys)) : False := by
    have := lowest_nonpos ys
    obtain ⟨ends, _⟩ := inner
    obtain ⟨_, low⟩ := outer
    simp only [lowest_append, lowest_cons, ends, level_of_closing closes] at low
    omega
  rcases List.append_eq_append_iff.mp same with ⟨more, rfl, behind⟩ | ⟨more, rfl, behind⟩
  · cases more with
    | nil => simpa using behind
    | cons c more =>
      obtain ⟨rfl, -⟩ := List.cons.inj behind
      exact (shorter isClosing matched matched').elim
  · cases more with
    | nil => simpa [eq_comm] using behind
    | cons c more =>
      obtain ⟨rfl, -⟩ := List.cons.inj behind
      exact (shorter isClosing' matched' matched).elim

/-- A group that opens within balanced tokens closes within them, or it would keep them open. -/
theorem closes_inside {before tail contents after rest : List Token}
    {opening closing closing' : Token} (isOpening : opening.kind = .opening)
    (isClosing : closing.kind = .closing) (outer : Balanced (before ++ opening :: tail))
    (matched : Balanced contents)
    (shared : contents ++ closing' :: after = tail ++ closing :: rest) :
    ∃ tail', tail = contents ++ closing' :: tail' := by
  obtain ⟨outerEnds, outerLow⟩ := outer
  obtain ⟨ends, low⟩ := matched
  have := lowest_le_opened before
  simp only [opened_append, lowest_append, opened_cons, level_of_opening isOpening]
    at outerEnds outerLow
  rcases List.append_eq_append_iff.mp shared with ⟨more, rfl, ending⟩ | ⟨more, rfl, ending⟩
  · cases more with
    | nil =>
      simp only [List.append_nil] at outerEnds
      omega
    | cons c more =>
      obtain ⟨rfl, -⟩ := List.cons.inj ending
      exact ⟨more, rfl⟩
  · cases more with
    | nil =>
      simp only [List.append_nil] at ends
      omega
    | cons c more =>
      obtain ⟨rfl, -⟩ := List.cons.inj ending
      have := lowest_nonpos more
      simp only [lowest_append, lowest_cons, level_of_closing isClosing] at low
      omega

/-- Tokens that come below `-n` do so at a closing parenthesis; the tokens before the first such
one stay above. -/
theorem exists_closing {ts : List Token} {n : Int} (nonneg : 0 ≤ n) (below : lowest ts < -n) :
    ∃ contents closing rest, ts = contents ++ closing :: rest ∧ closing.kind = .closing ∧
      opened contents = -n ∧ -n ≤ lowest contents := by
  induction ts generalizing n with
  | nil => simp only [lowest_nil] at below; omega
  | cons t ts ih =>
    by_cases last : t.kind = .closing ∧ n = 0
    · obtain ⟨isClosing, rfl⟩ := last
      exact ⟨[], t, ts, rfl, isClosing, rfl, Int.le_refl 0⟩
    · have bound : 0 ≤ n + t.level := by
        by_cases isClosing : t.kind = .closing
        · have : n ≠ 0 := fun zero => last ⟨isClosing, zero⟩
          rw [level_of_closing isClosing]
          omega
        · have : 0 ≤ t.level := by unfold level; split <;> simp_all
          omega
      have below' : lowest ts < -(n + t.level) := by
        simp only [lowest_cons] at below
        omega
      obtain ⟨contents, closing, rest, rfl, isClosing, ends, low⟩ := ih bound below'
      refine ⟨t :: contents, closing, rest, rfl, isClosing, ?_, ?_⟩
      · simp only [opened_cons]
        omega
      · simp only [lowest_cons]
        omega

/-- Induction on the groups of a list of tokens, of which the parentheses may also lack a
partner. -/
@[elab_as_elim]
theorem groups_induction {motive : List Token → Prop} (nil : motive [])
    (plain : ∀ t rest, t.level = 0 → motive rest → motive (t :: rest))
    (group : ∀ opening contents closing rest, opening.kind = .opening →
      closing.kind = .closing → Balanced contents → motive contents → motive rest →
        motive (opening :: (contents ++ closing :: rest)))
    (unclosed : ∀ opening rest, opening.kind = .opening → 0 ≤ lowest rest → motive rest →
      motive (opening :: rest))
    (unopened : ∀ closing rest, closing.kind = .closing → motive (closing :: rest))
    (ts : List Token) : motive ts := by
  induction size : ts.length using Nat.strongRecOn generalizing ts with
  | ind n ih =>
    subst size
    cases ts with
    | nil => exact nil
    | cons t rest =>
      by_cases isClosing : t.kind = .closing
      · exact unopened t rest isClosing
      by_cases isOpening : t.kind = .opening
      · by_cases closes : lowest rest < 0
        · obtain ⟨contents, closing, after, rfl, closed, matched⟩ :=
            exists_closing (Int.le_refl 0) closes
          simp only [List.length_cons, List.length_append] at ih
          exact group t contents closing after isOpening closed matched
            (ih _ (by omega) contents rfl) (ih _ (by omega) after rfl)
        · exact unclosed t rest isOpening (by omega) (ih _ (by simp) rest rfl)
      · exact plain t rest (level_eq_zero.mpr ⟨isOpening, isClosing⟩)
          (ih _ (by simp) rest rfl)

end Formula.Token
