import Formula.Proofs.Item.Calls
import Formula.Proofs.Item.Groups
import Formula.Proofs.Item.Levels
import Formula.Reading

/-!
The limit on nesting. A list of tokens is refused for its nesting only, and below the limit the
limit has no say in what is read.
-/

namespace Formula.Expr

open Outcome

variable {limit limit' : Int} {room room' : Nat} {tokens : List Token}

theorem ofTokensWithin_succ (limit : Int) (room : Nat) (tokens : List Token) :
    ofTokensWithin limit (room + 1) tokens =
      Item.resolve (ofTokensWithin limit room) tokens >>= fun items =>
        Item.bindCalls items >>= fun items => exponentialForm <$> Item.assemble items := by
  rw [ofTokensWithin]
  apply bind_congr
  intro items
  apply bind_congr
  intro items
  cases Item.assemble items <;> rfl

/-- More room changes nothing but the fault of having too little of it. -/
theorem ofTokensWithin_mono (limit' : Int) (le : room ≤ room') (tokens : List Token) :
    ofTokensWithin limit room tokens = .error (.tooDeep limit) ∨
      ofTokensWithin limit room tokens = ofTokensWithin limit' room' tokens := by
  induction room generalizing room' tokens with
  | zero => exact .inl rfl
  | succ room ih =>
    obtain ⟨room', rfl⟩ : ∃ k, room' = k + 1 := ⟨room' - 1, by omega⟩
    rw [ofTokensWithin_succ, ofTokensWithin_succ]
    have groups := ih (Nat.le_of_succ_le_succ le)
    rcases Item.resolve_error_or_eq groups tokens with failed | same
    · exact .inl (by rw [failed]; rfl)
    · exact .inr (by rw [same])

theorem ofTokensWithin_ne_tooDeep (enough : Token.nesting tokens < room) (l : Int) :
    ofTokensWithin limit room tokens ≠ .error (.tooDeep l) := by
  induction room generalizing tokens with
  | zero =>
    have := Token.nesting_nonneg tokens
    omega
  | succ room ih =>
    intro failed
    rw [ofTokensWithin_succ] at failed
    obtain failed | ⟨items, _, failed⟩ := bind_eq_error.mp failed
    · obtain unmatched | ⟨pos, unmatched⟩ | ⟨part, less, inner⟩ := Item.resolve_error failed
      · cases unmatched
      · cases unmatched
      · exact ih (by omega) inner
    obtain failed | ⟨items, _, failed⟩ := bind_eq_error.mp failed
    · obtain ⟨text, argument⟩ := Item.bindCalls_error failed
      cases argument
    · obtain operand | operator | ⟨t, leaf⟩ := Item.assemble_error (map_eq_error.mp failed)
      · cases operand
      · cases operator
      · cases leaf

theorem nesting_lt_of_ofTokensWithin {e : Expr} (read : ofTokensWithin limit room tokens = .ok e) :
    Token.nesting tokens < room := by
  induction room generalizing tokens e with
  | zero => cases read
  | succ room ih =>
    rw [ofTokensWithin_succ] at read
    obtain ⟨items, resolved, _⟩ := bind_eq_ok.mp read
    have := Item.resolve_ok_nesting (by omega) resolved fun part e inner => ih inner
    omega

/-- With enough room for the nesting, neither the room nor the limit matters. -/
theorem ofTokensWithin_eq (limit' : Int) (enough : Token.nesting tokens < room)
    (enough' : Token.nesting tokens < room') :
    ofTokensWithin limit room tokens = ofTokensWithin limit' room' tokens := by
  rcases Nat.le_total room room' with le | le
  · exact (ofTokensWithin_mono limit' le tokens).resolve_left
      (ofTokensWithin_ne_tooDeep enough limit)
  · exact ((ofTokensWithin_mono limit le tokens).resolve_left
      (ofTokensWithin_ne_tooDeep enough' limit')).symm

theorem nesting_lt_iff : Token.nesting tokens < (limit + 1).toNat ↔ Token.nesting tokens ≤ limit := by
  have := Token.nesting_nonneg tokens
  omega

/-- Under a limit that the nesting does not exceed, groups are read under the same limit. -/
theorem ofTokens_eq (enough : Token.nesting tokens ≤ limit) :
    ofTokens limit tokens =
      Item.resolve (ofTokens limit) tokens >>= fun items =>
        Item.bindCalls items >>= fun items => exponentialForm <$> Item.assemble items := by
  have nonneg := Token.nesting_nonneg tokens
  obtain ⟨room, size⟩ : ∃ room, (limit + 1).toNat = room + 1 := ⟨limit.toNat, by omega⟩
  have groups : Item.resolve (ofTokensWithin limit room) tokens =
      Item.resolve (ofTokens limit) tokens :=
    Item.resolve_congr fun part less =>
      ofTokensWithin_eq limit (by omega) (nesting_lt_iff.mpr (by omega))
  rw [ofTokens, size, ofTokensWithin_succ, groups]

theorem nesting_le_of_ofTokens {e : Expr} (read : ofTokens limit tokens = .ok e) :
    Token.nesting tokens ≤ limit :=
  nesting_lt_iff.mp (nesting_lt_of_ofTokensWithin read)

/-- The limit bites exactly where the parentheses nest deeper than it, and changes nothing but
the fault of nesting too deep; no other token has a say in that. -/
theorem ofTokens_limit (tokens : List Token) {limit higher : Int} (le : limit ≤ higher) :
    (ofTokens limit tokens = .error (.tooDeep limit) ∨
      ofTokens limit tokens = ofTokens higher tokens) ∧
    (Token.nesting tokens ≤ limit → ∀ l, ofTokens limit tokens ≠ .error (.tooDeep l)) ∧
    ((∃ e, ofTokens limit tokens = .ok e) ↔
      Token.nesting tokens ≤ limit ∧ ∃ other e, ofTokens other tokens = .ok e) ∧
    Token.nesting (tokens.filter (·.level != 0)) = Token.nesting tokens := by
  refine ⟨ofTokensWithin_mono higher (by omega) tokens, ?_, ?_, ?_⟩
  · intro enough l
    exact ofTokensWithin_ne_tooDeep (nesting_lt_iff.mpr enough) l
  · constructor
    · rintro ⟨e, read⟩
      exact ⟨nesting_le_of_ofTokens read, limit, e, read⟩
    · rintro ⟨enough, other, e, read⟩
      have same : ofTokens limit tokens = ofTokens other tokens :=
        ofTokensWithin_eq other (nesting_lt_iff.mpr enough) (nesting_lt_of_ofTokensWithin read)
      exact ⟨e, same.trans read⟩
  · exact Token.nesting_filter tokens

/-- The tokens of `((x))`. -/
def doubleGroup : List Token :=
  [⟨.opening, "(", none, 0⟩, ⟨.opening, "(", none, 1⟩, ⟨.name, "x", none, 2⟩,
    ⟨.closing, ")", none, 3⟩, ⟨.closing, ")", none, 4⟩]

theorem ofTokens_limit_doubleGroup :
    (1 : Int) ≤ 2 ∧
      (ofTokens 1 doubleGroup = .error (.tooDeep 1) ∨
        ofTokens 1 doubleGroup = ofTokens 2 doubleGroup) ∧
      ¬∃ e, ofTokens 1 doubleGroup = .ok e := by
  have le : (1 : Int) ≤ 2 := by decide
  obtain ⟨deep, _, reads, _⟩ := ofTokens_limit doubleGroup le
  refine ⟨le, deep, ?_⟩
  intro read
  have nesting : Token.nesting doubleGroup = 2 := by decide
  have enough := (reads.mp read).1
  omega

end Formula.Expr
