import Formula.Command
import Formula.Proofs.Item.Binding
import Formula.Proofs.Number.Scientific
import Formula.Proofs.Reading.Origin
import Formula.Proofs.View.Outline

/-!
What the command line prints. Names, numbers and messages have no line break in them, so every line
of a report is one line. Main statement: the report on a formula is its text, its nodes from the top
down and its height, or the one line of its fault.
-/

namespace Formula

namespace Text

/-- A text without a line break. -/
def IsLine (text : String) : Prop := '\n' ∉ text.toList

instance (text : String) : Decidable (IsLine text) := inferInstanceAs (Decidable (¬_))

@[simp] theorem isLine_append {a b : String} : IsLine (a ++ b) ↔ IsLine a ∧ IsLine b := by
  simp [IsLine]

theorem newline_not_mem_toDigits {base : Nat} (large : 1 < base) (n : Nat) :
    '\n' ∉ Nat.toDigits base n := by
  induction n using Nat.strongRecOn with
  | _ n ih =>
    rw [Nat.toDigits_eq_if large]
    split
    · simp
    · simp [ih (n / base) (Nat.div_lt_self (by omega) large)]

theorem isLine_nat (n : Nat) : IsLine (toString n) := by
  rw [IsLine, Nat.toString_eq_ofList_toDigits, String.toList_ofList]
  exact newline_not_mem_toDigits (by decide) n

theorem isLine_int (n : Int) : IsLine (toString n) := by
  cases n with
  | ofNat n => exact isLine_nat n
  | negSucc n => exact isLine_append.mpr ⟨by decide, isLine_nat (n + 1)⟩

theorem newline_not_mem_codeEscape (c : Char) : '\n' ∉ codeEscape c := by
  have code (width : Nat) : '\n' ∉ hexCode width c.toNat := by
    simp [hexCode, List.leftpad, newline_not_mem_toDigits]
  unfold codeEscape
  split_ifs <;> simp [code]

/-- A line break is shown by its code. -/
theorem isLine_quoted (text : String) : IsLine (quoted text) := by
  have sign : quoteSign text.toList ≠ '\n' := by
    unfold quoteSign
    split <;> decide
  have inner (c : Char) : '\n' ∉ quoteChar (quoteSign text.toList) c := by
    unfold quoteChar
    split_ifs with special newline
    · obtain rfl | rfl : c = quoteSign text.toList ∨ c = '\\' := by simpa using special
      · simpa using sign.symm
      · decide
    · decide
    · decide
    · decide
    · simpa using Ne.symm newline
    · exact newline_not_mem_codeEscape c
  simp [IsLine, quoted, quote, inner, sign.symm]

end Text

open Text Outcome

namespace Expr

variable {limit : Int} {room : Nat} {tokens : List Token} {source : String} {t : Expr}

/-- The text of a tree is one line if its names and numbers are. -/
theorem isLine_text (names : ∀ name, .var name ∈ t.nodes → IsLine name)
    (numbers : ∀ x, .number x ∈ t.nodes → IsLine x.text) : IsLine t.text := by
  induction t with
  | number x => exact numbers x (self_mem_nodes _)
  | var name => exact names name (self_mem_nodes _)
  | pi => decide
  | euler => decide
  | binary op left right ihLeft ihRight =>
    have first := ihLeft (fun name mem => names name (nodes_left op left right mem))
      fun x mem => numbers x (nodes_left op left right mem)
    have second := ihRight (fun name mem => names name (nodes_right op left right mem))
      fun x mem => numbers x (nodes_right op left right mem)
    have symbol : IsLine op.symbol := by cases op <;> decide
    simp only [text_binary, isLine_append, first, second, symbol]
    decide
  | unary op operand ih =>
    have only := ih (fun name mem => names name (nodes_operand op operand mem))
      fun x mem => numbers x (nodes_operand op operand mem)
    have symbol : IsLine op.symbol := by
      cases op with
      | apply f => cases f <;> decide
      | _ => decide
    by_cases sign : op = .neg
    · subst sign
      simp only [text_negation, isLine_append, only]
      decide
    · simp only [text_call sign, isLine_append, only, symbol]
      decide

theorem isLine_of_letters {name : String} (letters : ∀ c ∈ name.toList, isLetter c) :
    IsLine name := by
  intro mem
  exact absurd (letters _ mem) (by decide)

theorem isLine_number {x : Number}
    (unsigned : x = .infinite false ∨ ∃ rank, x = .finite false rank) : IsLine x.text := by
  rcases unsigned with rfl | ⟨rank, rfl⟩
  · decide
  · rw [IsLine, Number.text, String.toList_ofList]
    intro mem
    rcases (Number.written_toChars rank).1.char mem with digit | other
    · exact absurd digit (by decide)
    · exact absurd other (by decide)

section Read

variable (read : ofText limit source = .ok t)

include read

theorem isLine_text_of_ofText : IsLine t.text := by
  apply isLine_text
  · intro name mem
    exact isLine_of_letters (names_of_ofText read name mem).2.1
  · intro x mem
    exact isLine_number (numbers_of_ofText read x mem)

theorem isLine_label_of_ofText {node : Expr} (mem : node ∈ t.nodes) :
    IsLine (Outline.labelOf node) := by
  cases node with
  | number x =>
    exact isLine_append.mpr ⟨by decide, isLine_number (numbers_of_ofText read x mem)⟩
  | var name =>
    exact isLine_append.mpr ⟨by decide, isLine_of_letters (names_of_ofText read name mem).2.1⟩
  | pi => decide
  | euler => decide
  | binary op left right => cases op <;> rw [Outline.labelOf] <;> decide
  | unary op operand =>
    cases op with
    | apply f => cases f <;> rw [Outline.labelOf] <;> decide
    | _ => rw [Outline.labelOf]; decide

end Read

end Expr

namespace Outline

theorem isLine_guide {margin : String} {last : Bool} {e : Expr} {row : String × Expr}
    (line : IsLine margin) (mem : row ∈ rows margin last e) : IsLine row.1 := by
  have mark (last : Bool) : IsLine (corner last) ∧ IsLine (bar last) := by
    cases last <;> decide
  induction e generalizing margin last with
  | binary op left right ihLeft ihRight =>
    simp only [rows, List.mem_cons, List.mem_append] at mem
    rcases mem with rfl | first | second
    · exact isLine_append.mpr ⟨line, (mark last).1⟩
    · exact ihLeft (isLine_append.mpr ⟨line, (mark last).2⟩) first
    · exact ihRight (isLine_append.mpr ⟨line, (mark last).2⟩) second
  | unary op operand ih =>
    simp only [rows, List.mem_cons] at mem
    rcases mem with rfl | only
    · exact isLine_append.mpr ⟨line, (mark last).1⟩
    · exact ih (isLine_append.mpr ⟨line, (mark last).2⟩) only
  | _ =>
    obtain rfl := List.mem_singleton.mp mem
    exact isLine_append.mpr ⟨line, (mark last).1⟩

end Outline

namespace Item

/-- What the resolution keeps of the tokens it was given. -/
theorem mem_of_resolve {group : List Token → Except Fault Expr} {tokens : List Token}
    {items : List Item} (done : resolve group tokens = .ok items) {t : Token}
    (mem : .token t ∈ items) : t ∈ tokens := by
  induction tokens using Token.groups_induction generalizing items with
  | nil =>
    cases done
    cases mem
  | plain u rest plain ih =>
    rw [resolve_plain plain] at done
    obtain ⟨later, behind, rfl⟩ := map_eq_ok.mp done
    rcases List.mem_cons.mp mem with same | inside
    · simpa using .inl (Item.token.inj same)
    · exact List.mem_cons_of_mem _ (ih behind inside)
  | group opening contents closing rest isOpening isClosing matched _ ih =>
    rw [resolve_group isOpening isClosing matched] at done
    obtain ⟨e, _, more⟩ := bind_eq_ok.mp done
    obtain ⟨later, behind, rfl⟩ := map_eq_ok.mp more
    rcases List.mem_cons.mp mem with same | inside
    · cases same
    · simp [ih behind inside]
  | unclosed opening rest isOpening low =>
    rw [resolve_unclosed isOpening low] at done
    cases done
  | unopened closing rest isClosing =>
    rw [resolve_unopened isClosing] at done
    cases done

/-- A missing argument is missed in a group. -/
theorem missingArgument_of_resolve {group : List Token → Except Fault Expr} {tokens : List Token}
    {function : String} (failed : resolve group tokens = .error (.missingArgument function)) :
    ∃ part ⊆ tokens, group part = .error (.missingArgument function) := by
  induction tokens using Token.groups_induction with
  | nil => cases failed
  | plain t rest plain ih =>
    rw [resolve_plain plain] at failed
    obtain ⟨part, inside, fails⟩ := ih (map_eq_error.mp failed)
    exact ⟨part, List.subset_cons_of_subset t inside, fails⟩
  | group opening contents closing rest isOpening isClosing matched _ ih =>
    rw [resolve_group isOpening isClosing matched] at failed
    rcases bind_eq_error.mp failed with inner | ⟨e, _, later⟩
    · refine ⟨contents, ?_, inner⟩
      intro t mem
      simp [mem]
    · obtain ⟨part, inside, fails⟩ := ih (map_eq_error.mp later)
      refine ⟨part, ?_, fails⟩
      intro t mem
      simp [inside mem]
  | unclosed opening rest isOpening low =>
    rw [resolve_unclosed isOpening low] at failed
    cases failed
  | unopened closing rest isClosing =>
    rw [resolve_unopened isClosing] at failed
    cases failed

end Item

namespace Expr

variable {limit : Int} {tokens : List Token} {function : String}

/-- The function without an argument is one of the tokens. -/
theorem missingArgument_of_ofTokensWithin {room : Nat}
    (failed : ofTokensWithin limit room tokens = .error (.missingArgument function)) :
    ∃ t ∈ tokens, t.text = function ∧ ∃ f, t.kind = .function f := by
  induction room generalizing tokens with
  | zero => cases failed
  | succ room ih =>
    rw [ofTokensWithin_succ] at failed
    rcases bind_eq_error.mp failed with unresolved | ⟨items, resolved, more⟩
    · obtain ⟨part, inside, fails⟩ := Item.missingArgument_of_resolve unresolved
      obtain ⟨t, mem, found⟩ := ih fails
      exact ⟨t, inside mem, found⟩
    · rcases bind_eq_error.mp more with unbound | ⟨bound, _, unassembled⟩
      · obtain ⟨place, keyword, first, same⟩ := Item.firstUnbound_of_error unbound
        obtain ⟨here, isFunction, _⟩ := first.unbound
        have mem := Item.mem_of_resolve resolved (List.mem_of_getElem? here)
        exact ⟨keyword, mem, (Fault.missingArgument.inj same).symm, isFunction⟩
      · obtain other | other | ⟨t, other⟩ := Item.assemble_error (map_eq_error.mp unassembled) <;>
          cases other

end Expr

/-- The runs of a text give faults in the text itself only. -/
theorem Token.isLexical_of_ofRuns {pos : Nat} {runs : List (List Char)} {fault : Fault}
    (failed : ofRuns pos runs = .error fault) : fault.isLexical := by
  fun_induction ofRuns pos runs with
  | case1 => cases failed
  | case2 pos rest ih => exact ih failed
  | case3 pos c cs rest next blank ih => exact ih failed
  | case4 pos c cs rest run next letter ih => exact ih (map_eq_error.mp failed)
  | case5 pos c cs rest run next kind symbol ih => exact ih (map_eq_error.mp failed)
  | case6 pos c cs rest illegal =>
    cases failed
    rfl
  | case7 pos c cs rest run next numeral number value ih => exact ih (map_eq_error.mp failed)
  | case8 pos c cs rest next numeral noNumber illegal head =>
    cases failed
    rfl
  | case9 pos c cs rest run numeral noNumber noHead =>
    cases failed
    rfl

/-- A message is one line if the function it names is. -/
theorem Fault.isLine_message {fault : Fault}
    (function : ∀ name, fault = .missingArgument name → IsLine name) : IsLine fault.message := by
  cases fault with
  | illegalCharacter c pos => exact isLine_append.mpr ⟨by decide +kernel, isLine_quoted _⟩
  | malformedNumber text pos => exact isLine_append.mpr ⟨by decide +kernel, isLine_quoted _⟩
  | unmatchedClosing pos => exact isLine_append.mpr ⟨by decide +kernel, isLine_int pos⟩
  | missingArgument name =>
    refine isLine_append.mpr ⟨isLine_append.mpr ⟨?_, function name rfl⟩, ?_⟩ <;> decide +kernel
  | notALeaf t => exact isLine_append.mpr ⟨by decide +kernel, isLine_quoted _⟩
  | tooDeep limit => exact isLine_append.mpr ⟨by decide +kernel, isLine_int limit⟩
  | _ => decide +kernel

theorem Fault.isLine_message_of_ofText {limit : Int} {source : String} {fault : Fault}
    (failed : Expr.ofText limit source = .error fault) : IsLine fault.message := by
  apply isLine_message
  rintro name rfl
  rcases bind_eq_error.mp failed with lexical | ⟨tokens, readTokens, fails⟩
  · cases Token.isLexical_of_ofRuns lexical
  · obtain ⟨t, mem, rfl, f, isFunction⟩ := Expr.missingArgument_of_ofTokensWithin fails
    have segments : Token.Segments [] source.toList tokens :=
      Token.segments_of_ofChars (apart_nil _) readTokens
    obtain ⟨before, after, _, _, cut⟩ := segments.pieces t mem
    cases cut with
    | number kind _ _ _ => simp [kind] at isFunction
    | word _ _ run _ => exact Expr.isLine_of_letters run.inside
    | symbol _ symbol _ =>
      rw [isFunction] at symbol
      unfold Kind.ofSymbol? at symbol
      split at symbol <;> cases symbol

namespace Command

variable {setting : Option String} {source : String} {limit : Int}

theorem run_parse_ok {t : Expr} (read : Expr.ofText limit source = .ok t) :
    (parse source (some limit)).run setting =
      ⟨0, t.text :: ((Outline.rows "" true t).map Outline.rowLine ++
        ["depth " ++ toString t.depth])⟩ := by
  have limited : Journal.limitFor setting (some limit) = limit := rfl
  rw [run, limited, read]
  simp only [report, treeView, Outline.lines_ofExpr, Except.map, List.cons_append]

theorem run_parse_error {fault : Fault} (failed : Expr.ofText limit source = .error fault) :
    (parse source (some limit)).run setting =
      ⟨1, ["Error (" ++ fault.kind ++ "): " ++ fault.message]⟩ := by
  have limited : Journal.limitFor setting (some limit) = limit := rfl
  rw [run, limited, failed]
  rfl

/-- Every line of the report on a formula is one line. -/
theorem isLine_of_run_parse {line : String}
    (mem : line ∈ ((parse source (some limit)).run setting).lines) : IsLine line := by
  cases outcome : Expr.ofText limit source with
  | error fault =>
    rw [run_parse_error outcome] at mem
    obtain rfl := List.mem_singleton.mp mem
    have kind : IsLine fault.kind := by
      cases fault <;> rw [Fault.kind] <;> decide +kernel
    have heading : IsLine ("Error (" ++ fault.kind ++ "): ") :=
      isLine_append.mpr ⟨isLine_append.mpr ⟨by decide, kind⟩, by decide⟩
    exact isLine_append.mpr ⟨heading, Fault.isLine_message_of_ofText outcome⟩
  | ok t =>
    rw [run_parse_ok outcome] at mem
    simp only [List.mem_cons, List.mem_append, List.mem_map, List.not_mem_nil, or_false] at mem
    rcases mem with rfl | ⟨row, mem, rfl⟩ | rfl
    · exact Expr.isLine_text_of_ofText outcome
    · have node : row.2 ∈ t.nodes := by
        rw [← Outline.nodes_rows "" true t]
        exact List.mem_map_of_mem mem
      exact isLine_append.mpr ⟨Outline.isLine_guide (by decide) mem,
        Expr.isLine_label_of_ofText outcome node⟩
    · exact isLine_append.mpr ⟨by decide, isLine_nat t.depth⟩

end Command

end Formula
