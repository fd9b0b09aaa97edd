import Formula.Proofs.Number.Scientific
import Formula.Proofs.Reading.Printed

/-!
Different trees have different texts. The first character of a text says what stands at the root
of the tree, and the texts of the operands end where a space or a closing parenthesis follows. Main
statement: the text of a tree determines it.
-/

namespace Formula

open Text

/-- Of two ways to split a text behind characters of one class, both split off all of them. -/
theorem Text.span_unique {p : Char → Bool} {run run' rest rest' : List Char}
    (inside : ∀ c ∈ run, p c) (inside' : ∀ c ∈ run', p c)
    (ends : ∀ c ∈ rest.head?, p c = false) (ends' : ∀ c ∈ rest'.head?, p c = false)
    (same : run ++ rest = run' ++ rest') : run = run' ∧ rest = rest' := by
  have begins {run rest : List Char} (inside : ∀ c ∈ run, p c)
      (ends : ∀ c ∈ rest.head?, p c = false) : (run ++ rest).takeWhile p = run := by
    rw [List.takeWhile_append_of_pos inside]
    cases rest with
    | nil => simp
    | cons c rest => simp [ends c rfl]
  have first : run = run' := by
    rw [← begins inside ends, same, begins inside' ends']
  subst first
  exact ⟨rfl, List.append_cancel_left same⟩

theorem BinaryOp.symbol_inj {op op' : BinaryOp} {rest rest' : List Char}
    (same : op.symbol.toList ++ rest = op'.symbol.toList ++ rest') : op = op' ∧ rest = rest' := by
  obtain ⟨c, symbol, kind⟩ := op.exists_symbol
  obtain ⟨c', symbol', kind'⟩ := op'.exists_symbol
  rw [symbol, symbol'] at same
  obtain ⟨rfl, behind⟩ := List.cons.inj same
  rw [kind] at kind'
  exact ⟨by simpa using kind', behind⟩

theorem UnaryOp.symbol_inj {op op' : UnaryOp} (same : op.symbol = op'.symbol) : op = op' := by
  have found (op : UnaryOp) : all.find? (·.symbol == op.symbol) = some op := by
    cases op with
    | apply f => cases f <;> rfl
    | _ => rfl
  have both := found op
  rw [same, found op'] at both
  exact (Option.some.inj both).symm

namespace Expr

/-- Names are words other than the keywords; numbers are finite and have no sign. -/
structure Legible (t : Expr) : Prop where
  names : ∀ name, .var name ∈ t.nodes →
    name.toList ≠ [] ∧ (∀ c ∈ name.toList, isLetter c) ∧ name ∉ Kind.keywords
  numbers : ∀ x, .number x ∈ t.nodes → ∃ rank, x = .finite false rank

theorem Legible.of_subset {s t : Expr} (legible : t.Legible) (part : s.nodes ⊆ t.nodes) :
    s.Legible where
  names name mem := legible.names name (part mem)
  numbers x mem := legible.numbers x (part mem)

theorem Legible.left {op : BinaryOp} {left right : Expr}
    (legible : (binary op left right).Legible) : left.Legible :=
  legible.of_subset (nodes_left op left right)

theorem Legible.right {op : BinaryOp} {left right : Expr}
    (legible : (binary op left right).Legible) : right.Legible :=
  legible.of_subset (nodes_right op left right)

theorem Legible.operand {op : UnaryOp} {operand : Expr} (legible : (unary op operand).Legible) :
    operand.Legible :=
  legible.of_subset (nodes_operand op operand)

/-- What the text of a tree starts with. -/
def initial : Expr → CharClass
  | .number _ => .numeral
  | .binary .. => .symbol .opening
  | .unary .neg _ => .symbol (.operator .sub)
  | _ => .letter

/-- A tree whose text starts with a word: a leaf, or a call of its operand. -/
inductive Worded : Expr → String → Option Expr → Prop
  | var (name : String) : Worded (.var name) name none
  | pi : Worded .pi "pi" none
  | euler : Worded .euler "e" none
  | call {op : UnaryOp} (noSign : op ≠ .neg) (operand : Expr) :
    Worded (.unary op operand) op.symbol (some operand)

/-- What follows the word. -/
def argument : Option Expr → List Char
  | none => []
  | some operand => '(' :: (operand.text.toList ++ [')'])

variable {t u : Expr} {word : String} {operand : Option Expr}

theorem exists_worded (letter : t.initial = .letter) : ∃ word operand, Worded t word operand := by
  cases t with
  | number x => cases letter
  | var name => exact ⟨_, _, .var name⟩
  | pi => exact ⟨_, _, .pi⟩
  | euler => exact ⟨_, _, .euler⟩
  | binary op left right => cases letter
  | unary op operand =>
    have noSign : op ≠ .neg := by
      rintro rfl
      cases letter
    exact ⟨_, _, .call noSign operand⟩

theorem Worded.text (worded : Worded t word operand) :
    t.text.toList = word.toList ++ argument operand := by
  cases worded with
  | call noSign operand => simp [text_call noSign, argument]
  | _ => exact (List.append_nil _).symm

theorem Worded.letters (worded : Worded t word operand) (legible : t.Legible) :
    word.toList ≠ [] ∧ ∀ c ∈ word.toList, isLetter c := by
  cases worded with
  | var =>
    obtain ⟨nonempty, letters, _⟩ := legible.names _ (self_mem_nodes _)
    exact ⟨nonempty, letters⟩
  | pi => exact ⟨by decide, List.all_eq_true.mp rfl⟩
  | euler => exact ⟨by decide, List.all_eq_true.mp rfl⟩
  | call noSign operand =>
    rename_i op
    cases op with
    | neg => exact absurd rfl noSign
    | exp => exact ⟨by decide, List.all_eq_true.mp rfl⟩
    | apply f => exact f.isLetter_name

/-- The leaf that a word alone stands for. -/
def leafOf (word : String) : Expr :=
  match Kind.ofWord word with
  | .pi => .pi
  | .euler => .euler
  | _ => .var word

theorem Worded.leaf (worded : Worded t word none) (legible : t.Legible) : t = leafOf word := by
  cases worded with
  | var =>
    obtain ⟨_, _, noKeyword⟩ := legible.names _ (self_mem_nodes _)
    rw [leafOf, (Kind.ofWord_keyword word).1.mpr noKeyword]
  | pi => rfl
  | euler => rfl

theorem Worded.exists_call {operand : Expr} (worded : Worded t word (some operand)) :
    ∃ op, t = .unary op operand ∧ word = op.symbol := by
  cases worded with
  | call noSign operand => exact ⟨_, rfl, rfl⟩

/-- What can stand behind an operand: nothing, a space or a closing parenthesis. -/
def Stops (rest : List Char) : Prop := ∀ c ∈ rest.head?, c = ' ' ∨ c = ')'

theorem stops_blank (rest : List Char) : Stops (' ' :: rest) := by simp [Stops]

theorem stops_closing (rest : List Char) : Stops (')' :: rest) := by simp [Stops]

theorem Stops.no_letter {rest : List Char} (stops : Stops rest) :
    ∀ c ∈ rest.head?, isLetter c = false := by
  intro c mem
  rcases stops c mem with rfl | rfl <;> decide

theorem isLetter_argument {rest : List Char} (stops : Stops rest) (operand : Option Expr) :
    ∀ c ∈ (argument operand ++ rest).head?, isLetter c = false := by
  cases operand with
  | none => exact stops.no_letter
  | some operand =>
    rintro c ⟨⟩
    decide

/-- No other tree begins with the text of this one, where the text behind it stops the operand. -/
def Readable (t : Expr) : Prop :=
  ∀ (u : Expr) (rest rest' : List Char), u.Legible → Stops rest → Stops rest' →
    t.text.toList ++ rest = u.text.toList ++ rest' → t = u ∧ rest = rest'

theorem exists_initial (legible : t.Legible) :
    ∃ c cs, t.text.toList = c :: cs ∧ CharClass.of c = t.initial := by
  have word (letter : t.initial = .letter) :
      ∃ c cs, t.text.toList = c :: cs ∧ CharClass.of c = t.initial := by
    obtain ⟨word, operand, worded⟩ := exists_worded letter
    obtain ⟨nonempty, letters⟩ := worded.letters legible
    obtain ⟨c, cs, head⟩ := List.exists_cons_of_ne_nil nonempty
    rw [worded.text, head, letter]
    exact ⟨c, _, rfl, CharClass.of_letter (letters c (by simp [head]))⟩
  cases t with
  | number x =>
    obtain ⟨rank, rfl⟩ := legible.numbers x (self_mem_nodes _)
    obtain ⟨c, cs, head, digit⟩ := (Number.written_toChars rank).1.exists_cons
    exact ⟨c, cs, (toList_number _).trans head, CharClass.of_numeral (isNumeral_of_isDigit digit)⟩
  | binary op left right => exact ⟨'(', _, toList_binary op left right, CharClass.of_symbol rfl⟩
  | unary op operand =>
    cases op with
    | neg => exact ⟨'-', _, toList_negation operand, CharClass.of_symbol rfl⟩
    | _ => exact word rfl
  | _ => exact word rfl

theorem initial_eq {rest rest' : List Char} (legible : t.Legible) (legible' : u.Legible)
    (same : t.text.toList ++ rest = u.text.toList ++ rest') : t.initial = u.initial := by
  obtain ⟨c, cs, head, kind⟩ := exists_initial legible
  obtain ⟨c', cs', head', kind'⟩ := exists_initial legible'
  rw [head, head'] at same
  obtain ⟨rfl, _⟩ := List.cons.inj same
  exact kind.symm.trans kind'

/-- The text of a number holds nothing that can stand behind it. -/
theorem span_number (rank : Fin magnitudes) {c : Char}
    (mem : c ∈ (Number.finite false rank).toChars) : (c != ' ' && c != ')') = true := by
  rcases (Number.written_toChars rank).1.char mem with digit | mark
  · have noBlank : c ≠ ' ' := by
      rintro rfl
      cases digit
    have noClosing : c ≠ ')' := by
      rintro rfl
      cases digit
    simp [noBlank, noClosing]
  · simp only [List.mem_cons, List.not_mem_nil, or_false] at mark
    rcases mark with rfl | rfl | rfl <;> rfl

theorem Stops.ends {rest : List Char} (stops : Stops rest) :
    ∀ c ∈ rest.head?, (c != ' ' && c != ')') = false := by
  intro c mem
  rcases stops c mem with rfl | rfl <;> rfl

theorem readable_number {x : Number} (legible : (number x).Legible) : Readable (number x) := by
  intro u rest rest' legible' stops stops' same
  have initial := initial_eq legible legible' same
  cases u with
  | number y =>
    obtain ⟨rank, rfl⟩ := legible.numbers x (self_mem_nodes _)
    obtain ⟨rank', rfl⟩ := legible'.numbers y (self_mem_nodes _)
    rw [toList_number, toList_number] at same
    obtain ⟨text, behind⟩ := span_unique (fun c => span_number rank) (fun c => span_number rank')
      stops.ends stops'.ends same
    exact ⟨by rw [Number.toChars_inj text], behind⟩
  | unary op operand => cases op <;> cases initial
  | _ => cases initial

theorem readable_worded (worded : Worded t word operand) (letter : t.initial = .letter)
    (legible : t.Legible) (inner : ∀ x ∈ operand, Readable x) : Readable t := by
  intro u rest rest' legible' stops stops' same
  rw [initial_eq legible legible' same] at letter
  obtain ⟨word', operand', worded'⟩ := exists_worded letter
  obtain ⟨_, letters⟩ := worded.letters legible
  obtain ⟨_, letters'⟩ := worded'.letters legible'
  rw [worded.text, worded'.text, List.append_assoc, List.append_assoc] at same
  obtain ⟨first, behind⟩ := span_unique letters letters' (isLetter_argument stops operand)
    (isLetter_argument stops' operand') same
  obtain rfl := String.toList_inj.mp first
  have opening {rest : List Char} (stops : Stops rest) (text : List Char) :
      rest ≠ '(' :: text := by
    rintro rfl
    simpa using stops '(' rfl
  cases operand with
  | none =>
    cases operand' with
    | none =>
      exact ⟨(worded.leaf legible).trans (worded'.leaf legible').symm, behind⟩
    | some y => exact absurd behind (opening stops _)
  | some x =>
    cases operand' with
    | none => exact absurd behind.symm (opening stops' _)
    | some y =>
      obtain ⟨op, rfl, symbol⟩ := worded.exists_call
      obtain ⟨op', rfl, symbol'⟩ := worded'.exists_call
      simp only [argument, List.cons_append, List.append_assoc, List.cons.injEq, true_and,
        List.nil_append] at behind
      obtain ⟨rfl, ending⟩ := inner x rfl y _ _ legible'.operand (stops_closing rest)
        (stops_closing rest') behind
      rw [UnaryOp.symbol_inj (symbol.symm.trans symbol')]
      exact ⟨rfl, (List.cons.inj ending).2⟩

theorem readable_negation {operand : Expr} (legible : (unary .neg operand).Legible)
    (inner : Readable operand) : Readable (unary .neg operand) := by
  intro u rest rest' legible' stops stops' same
  have initial := initial_eq legible legible' same
  cases u with
  | unary op operand' =>
    cases op with
    | neg =>
      rw [toList_negation, toList_negation] at same
      obtain ⟨rfl, behind⟩ := inner operand' _ _ legible'.operand stops stops'
        (List.cons.inj same).2
      exact ⟨rfl, behind⟩
    | _ => cases initial
  | _ => cases initial

theorem readable_binary {op : BinaryOp} {left right : Expr}
    (legible : (binary op left right).Legible) (innerLeft : Readable left)
    (innerRight : Readable right) : Readable (binary op left right) := by
  intro u rest rest' legible' _ _ same
  have initial := initial_eq legible legible' same
  cases u with
  | binary op' left' right' =>
    simp only [toList_binary, List.cons_append, List.append_assoc, List.cons.injEq, true_and,
      List.nil_append] at same
    obtain ⟨rfl, behind⟩ := innerLeft left' _ _ legible'.left (stops_blank _) (stops_blank _) same
    obtain ⟨rfl, later⟩ := BinaryOp.symbol_inj (List.cons.inj behind).2
    obtain ⟨rfl, ending⟩ := innerRight right' _ _ legible'.right (stops_closing _)
      (stops_closing _) (List.cons.inj later).2
    exact ⟨rfl, (List.cons.inj ending).2⟩
  | unary op operand => cases op <;> cases initial
  | _ => cases initial

theorem Legible.readable (legible : t.Legible) : Readable t := by
  induction t with
  | number x => exact readable_number legible
  | var name => exact readable_worded (.var name) rfl legible (by simp)
  | pi => exact readable_worded .pi rfl legible (by simp)
  | euler => exact readable_worded .euler rfl legible (by simp)
  | binary op left right ihLeft ihRight =>
    exact readable_binary legible (ihLeft legible.left) (ihRight legible.right)
  | unary op operand ih =>
    have inner : Readable operand := ih legible.operand
    cases op with
    | neg => exact readable_negation legible inner
    | exp => exact readable_worded (.call (by simp) operand) rfl legible (by simpa using inner)
    | apply f => exact readable_worded (.call (by simp) operand) rfl legible (by simpa using inner)

/-- Trees whose names are words and whose numbers have no sign are equal as soon as their texts
are. -/
theorem text_eq_iff (legible : t.Legible) (legible' : u.Legible) : t.text = u.text ↔ t = u := by
  constructor
  · intro same
    have stops : Stops [] := by simp [Stops]
    exact (legible.readable u [] [] legible' stops stops (by rw [same])).1
  · exact congrArg Expr.text

theorem rank_least : 1 < magnitudes := by decide

/-- The exponential of a negated variable `exp`, to the power of the least number. -/
def signInside : Expr :=
  .binary .pow (.unary .exp (.unary .neg (.var "exp"))) (.number (.finite false ⟨1, rank_least⟩))

/-- The same with the sign before the exponential. -/
def signOutside : Expr :=
  .binary .pow (.unary .neg (.unary .exp (.var "exp"))) (.number (.finite false ⟨1, rank_least⟩))

theorem text_signInside_ne : signInside.Legible ∧ signOutside.Legible ∧
    signInside.text ≠ signOutside.text := by
  have name : "exp".toList ≠ [] ∧ (∀ c ∈ "exp".toList, isLetter c) ∧ "exp" ∉ Kind.keywords :=
    ⟨by decide, List.all_eq_true.mp rfl, by decide⟩
  have inside : signInside.Legible :=
    ⟨by simpa [signInside, nodes] using name, by simp [signInside, nodes]⟩
  have outside : signOutside.Legible :=
    ⟨by simpa [signOutside, nodes] using name, by simp [signOutside, nodes]⟩
  refine ⟨inside, outside, ?_⟩
  rw [Ne, text_eq_iff inside outside]
  simp [signInside, signOutside]

end Expr

end Formula
