import Formula.Proofs.Expr.Reread
import Formula.Proofs.Grammar.Content
import Formula.Proofs.Number.Decimal
import Formula.Proofs.Token.Segmentation

/-!
Which trees texts are read as: their names are runs of letters other than the keywords, their
numbers have no sign, and no power in them has the base e.
-/

namespace Formula.Expr

open Text Outcome

theorem leaf_mem_written {t leaf : Expr} (mem : leaf ∈ t.nodes) (noChildren : leaf.children = []) :
    .leaf leaf ∈ t.written := by
  induction t with
  | binary op left right ihLeft ihRight =>
    rcases List.mem_cons.mp mem with rfl | below
    · cases noChildren
    · rcases List.mem_append.mp below with below | below
      · simp [written, ihLeft below]
      · simp [written, ihRight below]
  | unary op operand ih =>
    rcases List.mem_cons.mp mem with rfl | below
    · cases noChildren
    · cases op <;> simp [written, ih below]
  | _ => simpa [nodes, written] using mem

variable {limit : Int} {text : String} {t : Expr}

/-- Every leaf stands for a piece of the text. -/
theorem exists_cut_of_ofText (read : ofText limit text = .ok t) {leaf : Expr}
    (mem : leaf ∈ t.nodes) (noChildren : leaf.children = []) :
    ∃ (token : Token) (before after : List Char), token.Cut before after ∧ token.Literal leaf := by
  obtain ⟨tokens, readTokens, readTree⟩ := bind_eq_ok.mp read
  have segments : Token.Segments [] text.toList tokens :=
    Token.segments_of_ofChars (apart_nil _) readTokens
  obtain ⟨i, bound, here⟩ := List.mem_iff_getElem.mp (leaf_mem_written mem noChildren)
  have written := written_of_ofTokens readTree
  have bound' : i < (Token.plain tokens).length := written.length_eq ▸ bound
  have writes := List.Forall₂.get written bound' bound
  rw [List.get_eq_getElem, List.get_eq_getElem, here] at writes
  obtain ⟨before, after, _, _, cut⟩ :=
    segments.pieces _ (List.mem_of_mem_filter (List.getElem_mem bound'))
  cases writes with
  | leaf isLiteral => exact ⟨_, before, after, cut, isLiteral⟩

theorem names_of_ofText (read : ofText limit text = .ok t) (name : String)
    (mem : .var name ∈ t.nodes) :
    name.toList ≠ [] ∧ (∀ c ∈ name.toList, isLetter c) ∧ name ∉ Kind.keywords := by
  obtain ⟨token, before, after, cut, isLiteral⟩ := exists_cut_of_ofText read mem rfl
  cases isLiteral with
  | name kind =>
    cases cut with
    | number isNumber _ _ _ => simp [kind] at isNumber
    | word isName _ run _ => exact ⟨run.nonempty, run.inside, isName.mp kind⟩
    | symbol _ symbol _ =>
      rw [kind] at symbol
      unfold Kind.ofSymbol? at symbol
      split at symbol <;> cases symbol

theorem numbers_of_ofText (read : ofText limit text = .ok t) (x : Number)
    (mem : .number x ∈ t.nodes) : x = .infinite false ∨ ∃ rank, x = .finite false rank := by
  obtain ⟨token, before, after, cut, isLiteral⟩ := exists_cut_of_ofText read mem rfl
  cases isLiteral with
  | number kind number =>
    cases cut with
    | number isNumber run number' value =>
      obtain rfl := Option.some.inj (number.symm.trans number')
      rw [Number.ofText?_numerals run.inside] at value
      simp only [Number.ofNumeral?] at value
      split at value
      · cases value
      · obtain ⟨power, _, rfl⟩ := Option.map_eq_some_iff.mp value
        exact Number.ofDecimal_unsigned _ _
    | word _ _ _ noNumber => simp [number] at noNumber
    | symbol _ _ noNumber => simp [number] at noNumber

theorem no_powerOfE_of_ofText (read : ofText limit text = .ok t) (right : Expr) :
    .binary .pow .euler right ∉ t.nodes := by
  obtain ⟨tokens, _, readTree⟩ := bind_eq_ok.mp read
  obtain ⟨d, _, rfl⟩ := derivation_of_ofTokens readTree
  exact no_powerOfE_exponentialForm _ _

end Formula.Expr
