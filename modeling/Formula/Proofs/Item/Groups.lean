import Formula.Item.Group
import Formula.Proofs.Outcome
import Formula.Proofs.Token.Nesting

/-!
What the resolution of groups does with the outermost parentheses of a list: one equation for
each way in which a list can begin.
-/

namespace Formula

namespace Piece

section Scan

variable {t : Token} (n : Nat) (contents rest : List Token)

theorem scan_zero_opening (opens : t.kind = .opening) :
    scan 0 contents (t :: rest) = scan 1 [] rest := by
  obtain ⟨kind⟩ := t
  cases opens
  rfl

theorem scan_succ_opening (opens : t.kind = .opening) :
    scan (n + 1) contents (t :: rest) = scan (n + 2) (t :: contents) rest := by
  obtain ⟨kind⟩ := t
  cases opens
  rfl

theorem scan_zero_closing (closes : t.kind = .closing) :
    scan 0 contents (t :: rest) = ([], some (.unmatchedClosing t.pos)) := by
  obtain ⟨kind⟩ := t
  cases closes
  rfl

theorem scan_one_closing (closes : t.kind = .closing) :
    scan 1 contents (t :: rest) =
      (.group contents.reverse :: (scan 0 [] rest).1, (scan 0 [] rest).2) := by
  obtain ⟨kind⟩ := t
  cases closes
  rfl

theorem scan_succ_closing (closes : t.kind = .closing) :
    scan (n + 2) contents (t :: rest) = scan (n + 1) (t :: contents) rest := by
  obtain ⟨kind⟩ := t
  cases closes
  rfl

end Scan

theorem scan_zero_plain {t : Token} (plain : t.level = 0) (contents rest : List Token) :
    scan 0 contents (t :: rest) = (.token t :: (scan 0 [] rest).1, (scan 0 [] rest).2) := by
  obtain ⟨kind⟩ := t
  cases kind with
  | opening => cases plain
  | closing => cases plain
  | _ => rfl

theorem scan_succ_plain {t : Token} (plain : t.level = 0) (n : Nat) (contents rest : List Token) :
    scan (n + 1) contents (t :: rest) = scan (n + 1) (t :: contents) rest := by
  obtain ⟨kind⟩ := t
  cases kind with
  | opening => cases plain
  | closing => cases plain
  | _ => rfl

/-- Within a group the scan runs on to the parenthesis that closes it. -/
theorem scan_closing {closing : Token} (isClosing : closing.kind = .closing) {n : Nat}
    {inner : List Token} (ends : Token.opened inner = -n) (low : -n ≤ Token.lowest inner)
    (contents rest : List Token) :
    scan (n + 1) contents (inner ++ closing :: rest) =
      (.group (contents.reverse ++ inner) :: (scan 0 [] rest).1, (scan 0 [] rest).2) := by
  induction inner generalizing n contents with
  | nil =>
    have : n = 0 := by simp only [Token.opened_nil] at ends; omega
    subst this
    rw [List.nil_append, List.append_nil, scan_one_closing contents rest isClosing]
  | cons t inner ih =>
    simp only [Token.opened_cons] at ends
    simp only [Token.lowest_cons] at low
    by_cases opens : t.kind = .opening
    · rw [Token.level_of_opening opens] at ends low
      rw [List.cons_append, scan_succ_opening n contents _ opens,
        ih (n := n + 1) (by omega) (by omega)]
      simp
    by_cases closes : t.kind = .closing
    · rw [Token.level_of_closing closes] at ends low
      have : Token.lowest inner ≤ 0 := Token.lowest_nonpos inner
      obtain ⟨k, rfl⟩ : ∃ k, n = k + 1 := ⟨n - 1, by omega⟩
      rw [List.cons_append, scan_succ_closing k contents _ closes, ih (by omega) (by omega)]
      simp
    · have plain := Token.level_eq_zero.mpr ⟨opens, closes⟩
      rw [List.cons_append, scan_succ_plain plain, ih (by omega) (by omega)]
      simp

/-- A group that nothing closes is the fault, and no piece. -/
theorem scan_unclosed {n : Nat} {ts : List Token} (low : -n ≤ Token.lowest ts)
    (contents : List Token) : scan (n + 1) contents ts = ([], some .unmatchedOpening) := by
  induction ts generalizing n contents with
  | nil => rfl
  | cons t ts ih =>
    simp only [Token.lowest_cons] at low
    by_cases opens : t.kind = .opening
    · rw [Token.level_of_opening opens] at low
      rw [scan_succ_opening n contents ts opens]
      exact ih (by omega) _
    by_cases closes : t.kind = .closing
    · rw [Token.level_of_closing closes] at low
      have : Token.lowest ts ≤ 0 := Token.lowest_nonpos ts
      obtain ⟨k, rfl⟩ : ∃ k, n = k + 1 := ⟨n - 1, by omega⟩
      rw [scan_succ_closing k contents ts closes]
      exact ih (by omega) _
    · have plain := Token.level_eq_zero.mpr ⟨opens, closes⟩
      rw [scan_succ_plain plain]
      exact ih (by omega) _

section OfTokens

variable {opening closing t : Token} {contents rest : List Token}

theorem ofTokens_plain (plain : t.level = 0) :
    ofTokens (t :: rest) = (.token t :: (ofTokens rest).1, (ofTokens rest).2) :=
  scan_zero_plain plain [] rest

theorem ofTokens_group (isOpening : opening.kind = .opening) (isClosing : closing.kind = .closing)
    (matched : Token.Balanced contents) :
    ofTokens (opening :: (contents ++ closing :: rest)) =
      (.group contents :: (ofTokens rest).1, (ofTokens rest).2) := by
  calc scan 0 [] (opening :: (contents ++ closing :: rest))
    _ = scan 1 [] (contents ++ closing :: rest) := scan_zero_opening [] _ isOpening
    _ = _ := scan_closing isClosing (n := 0) matched.1 matched.2 [] rest

theorem ofTokens_unclosed (isOpening : opening.kind = .opening) (low : 0 ≤ Token.lowest rest) :
    ofTokens (opening :: rest) = ([], some .unmatchedOpening) := by
  calc scan 0 [] (opening :: rest)
    _ = scan 1 [] rest := scan_zero_opening [] rest isOpening
    _ = _ := scan_unclosed (n := 0) low []

theorem ofTokens_unopened (isClosing : closing.kind = .closing) :
    ofTokens (closing :: rest) = ([], some (.unmatchedClosing closing.pos)) :=
  scan_zero_closing [] rest isClosing

end OfTokens

end Piece

namespace Item

open Outcome

variable {assemble : List Token → Except Fault Expr} {opening closing t : Token}
  {contents rest : List Token}

theorem resolve_plain (plain : t.level = 0) :
    resolve assemble (t :: rest) = (Item.token t :: ·) <$> resolve assemble rest := by
  simp only [resolve, Piece.ofTokens_plain plain, List.mapM_cons, ofPiece]
  cases (Piece.ofTokens rest).1.mapM (ofPiece assemble) <;>
    cases (Piece.ofTokens rest).2 <;> rfl

theorem resolve_group (isOpening : opening.kind = .opening) (isClosing : closing.kind = .closing)
    (matched : Token.Balanced contents) :
    resolve assemble (opening :: (contents ++ closing :: rest)) =
      assemble contents >>= fun e => (Item.tree e :: ·) <$> resolve assemble rest := by
  simp only [resolve, Piece.ofTokens_group isOpening isClosing matched, List.mapM_cons, ofPiece]
  cases assemble contents <;> cases (Piece.ofTokens rest).1.mapM (ofPiece assemble) <;>
    cases (Piece.ofTokens rest).2 <;> rfl

theorem resolve_unclosed (isOpening : opening.kind = .opening) (low : 0 ≤ Token.lowest rest) :
    resolve assemble (opening :: rest) = .error .unmatchedOpening := by
  simp only [resolve, Piece.ofTokens_unclosed isOpening low]
  rfl

theorem resolve_unopened (isClosing : closing.kind = .closing) :
    resolve assemble (closing :: rest) = .error (.unmatchedClosing closing.pos) := by
  simp only [resolve, Piece.ofTokens_unopened isClosing]
  rfl

/-- Groups of less nesting decide the resolution. -/
theorem resolve_congr {other : List Token → Except Fault Expr} {ts : List Token}
    (agree : ∀ part, Token.nesting part < Token.nesting ts → assemble part = other part) :
    resolve assemble ts = resolve other ts := by
  induction ts using Token.groups_induction with
  | nil => rfl
  | plain t rest plain ih =>
    rw [Token.nesting_plain plain] at agree
    rw [resolve_plain plain, resolve_plain plain, ih agree]
  | group opening contents closing rest isOpening isClosing matched _ ih =>
    rw [Token.nesting_group isOpening isClosing matched] at agree
    rw [resolve_group isOpening isClosing matched, resolve_group isOpening isClosing matched,
      agree contents (by omega), ih fun part less => agree part (by omega)]
  | unclosed opening rest isOpening low =>
    rw [resolve_unclosed isOpening low, resolve_unclosed isOpening low]
  | unopened closing rest isClosing =>
    rw [resolve_unopened isClosing, resolve_unopened isClosing]

/-- A reader of groups that may give up with a fault of its own, and otherwise agrees with
another one, passes this on to whole lists. -/
theorem resolve_error_or_eq {other : List Token → Except Fault Expr} {fault : Fault}
    (agree : ∀ part, assemble part = .error fault ∨ assemble part = other part)
    (ts : List Token) :
    resolve assemble ts = .error fault ∨ resolve assemble ts = resolve other ts := by
  induction ts using Token.groups_induction with
  | nil => exact .inr rfl
  | plain t rest plain ih =>
    rw [resolve_plain plain, resolve_plain plain]
    exact ih.imp (fun failed => by rw [failed]; rfl) (fun same => by rw [same])
  | group opening contents closing rest isOpening isClosing matched _ ih =>
    rw [resolve_group isOpening isClosing matched, resolve_group isOpening isClosing matched]
    rcases agree contents with failed | same
    · exact .inl (by rw [failed]; rfl)
    rw [same]
    cases other contents with
    | error fault => exact .inr rfl
    | ok e => exact ih.imp (fun failed => by rw [failed]; rfl) (fun same => by rw [same])
  | unclosed opening rest isOpening low =>
    rw [resolve_unclosed isOpening low, resolve_unclosed isOpening low]
    exact .inr rfl
  | unopened closing rest isClosing =>
    rw [resolve_unopened isClosing, resolve_unopened isClosing]
    exact .inr rfl

/-- A fault of the resolution is an unmatched parenthesis, or the fault of a group. -/
theorem resolve_error {ts : List Token} {fault : Fault}
    (failed : resolve assemble ts = .error fault) :
    fault = .unmatchedOpening ∨ (∃ pos, fault = .unmatchedClosing pos) ∨
      ∃ part, Token.nesting part < Token.nesting ts ∧ assemble part = .error fault := by
  induction ts using Token.groups_induction with
  | nil => cases failed
  | plain t rest plain ih =>
    rw [resolve_plain plain] at failed
    rw [Token.nesting_plain plain]
    exact ih (map_eq_error.mp failed)
  | group opening contents closing rest isOpening isClosing matched _ ih =>
    rw [resolve_group isOpening isClosing matched] at failed
    rw [Token.nesting_group isOpening isClosing matched]
    rcases bind_eq_error.mp failed with inner | ⟨e, _, later⟩
    · exact .inr (.inr ⟨contents, by omega, inner⟩)
    · obtain unmatched | unmatched | ⟨part, less, inner⟩ := ih (map_eq_error.mp later)
      · exact .inl unmatched
      · exact .inr (.inl unmatched)
      · exact .inr (.inr ⟨part, by omega, inner⟩)
  | unclosed opening rest isOpening low =>
    rw [resolve_unclosed isOpening low] at failed
    cases failed
    exact .inl rfl
  | unopened closing rest isClosing =>
    rw [resolve_unopened isClosing] at failed
    cases failed
    exact .inr (.inl ⟨_, rfl⟩)

/-- Where the resolution succeeds, some group nests one level less deep than the list. -/
theorem resolve_ok_nesting {ts : List Token} {items : List Item} {n : Int} (nonneg : 0 ≤ n)
    (done : resolve assemble ts = .ok items)
    (bound : ∀ part e, assemble part = .ok e → Token.nesting part < n) :
    Token.nesting ts ≤ n := by
  induction ts using Token.groups_induction generalizing items with
  | nil => exact nonneg
  | plain t rest plain ih =>
    rw [resolve_plain plain] at done
    obtain ⟨_, done, _⟩ := map_eq_ok.mp done
    rw [Token.nesting_plain plain]
    exact ih done
  | group opening contents closing rest isOpening isClosing matched _ ih =>
    rw [resolve_group isOpening isClosing matched] at done
    obtain ⟨e, inner, later⟩ := bind_eq_ok.mp done
    obtain ⟨_, later, _⟩ := map_eq_ok.mp later
    have := bound contents e inner
    have := ih later
    rw [Token.nesting_group isOpening isClosing matched]
    omega
  | unclosed opening rest isOpening low =>
    rw [resolve_unclosed isOpening low] at done
    cases done
  | unopened closing rest isClosing =>
    rw [resolve_unopened isClosing] at done
    cases done

end Item

end Formula
