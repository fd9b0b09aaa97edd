import Mathlib.Data.List.SplitBy
import Formula.Proofs.Outcome
import Formula.Proofs.Text.Classes

/-!
Reading a text from left to right: one equation for each way in which a text can begin, and the
induction on the runs of a text that goes with them.
-/

namespace Formula

open Text Outcome

theorem joined_iff {a b : Char} :
    joined a b ↔ isLetter a ∧ isLetter b ∨ isNumeral a ∧ isNumeral b := by
  rw [← CharClass.of_eq_letter, ← CharClass.of_eq_letter, ← CharClass.of_eq_numeral,
    ← CharClass.of_eq_numeral]
  unfold joined
  cases CharClass.of a <;> cases CharClass.of b <;> simp

theorem joined_eq_false {a b : Char} (letters : isLetter a = false ∨ isLetter b = false)
    (numerals : isNumeral a = false ∨ isNumeral b = false) : joined a b = false := by
  apply Bool.eq_false_iff.mpr
  intro together
  rcases joined_iff.mp together with ⟨left, right⟩ | ⟨left, right⟩
  · simp [left, right] at letters
  · simp [left, right] at numerals

/-- Between `before` and `after` stands a longest run of characters of a class. -/
structure Stretch (p : Char → Bool) (before run after : List Char) : Prop where
  nonempty : run ≠ []
  inside : ∀ c ∈ run, p c
  starts : ∀ c ∈ before.getLast?, p c = false
  ends : ∀ c ∈ after.head?, p c = false

namespace Stretch

variable {before run after : List Char} {p : Char → Bool}

theorem exists_cons (stretch : Stretch p before run after) :
    ∃ c cs, run = c :: cs ∧ p c := by
  obtain ⟨c, cs, rfl⟩ := List.exists_cons_of_ne_nil stretch.nonempty
  exact ⟨c, cs, rfl, stretch.inside c (by simp)⟩

/-- A text that starts with a character of the class starts with a stretch of it. -/
theorem exists_of_head {c : Char} (head : p c) (text : List Char) :
    ∃ run rest, c :: text = run ++ rest ∧ Stretch p [] run rest := by
  obtain ⟨run, rest, split, inside, ends⟩ := exists_span p (c :: text)
  refine ⟨run, rest, split, ?_, inside, by simp, ends⟩
  rintro rfl
  rw [List.nil_append] at split
  subst split
  simpa [head] using ends c rfl

end Stretch

/-- No run goes on from one text into the text behind it. -/
def Apart (before after : List Char) : Prop :=
  ∀ a ∈ before.getLast?, ∀ b ∈ after.head?, joined a b = false

theorem apart_nil (after : List Char) : Apart [] after := by simp [Apart]

theorem Apart.append_left {run rest : List Char} (apart : Apart run rest) (nonempty : run ≠ [])
    (before : List Char) : Apart (before ++ run) rest := by
  intro a last b head
  rw [List.getLast?_append_of_ne_nil _ nonempty] at last
  exact apart a last b head

theorem apart_single {c : Char} (noLetter : isLetter c = false) (noNumeral : isNumeral c = false)
    (rest : List Char) : Apart [c] rest := by
  intro a last b _
  obtain rfl : c = a := by simpa using last
  exact joined_eq_false (.inl noLetter) (.inl noNumeral)

theorem apart_blank {c : Char} (blank : isBlank c) (rest : List Char) : Apart [c] rest :=
  apart_single (isLetter_of_isBlank blank) (isNumeral_of_isBlank blank) rest

theorem apart_symbol {c : Char} {kind : Kind} (symbol : Kind.ofSymbol? c = some kind)
    (rest : List Char) : Apart [c] rest := by
  obtain ⟨_, noLetter, noNumeral⟩ := classes_of_symbol symbol
  exact apart_single noLetter noNumeral rest

theorem apart_cons {c : Char} (noLetter : isLetter c = false) (noNumeral : isNumeral c = false)
    (before rest : List Char) : Apart before (c :: rest) := by
  intro a _ b head
  obtain rfl : c = b := by simpa using head
  exact joined_eq_false (.inr noLetter) (.inr noNumeral)

theorem apart_illegal {c : Char} (illegal : Illegal c) (before rest : List Char) :
    Apart before (c :: rest) :=
  apart_cons illegal.2.1 (isNumeral_of_illegal illegal) before rest

theorem runs_append {before after : List Char} (apart : Apart before after) :
    runs (before ++ after) = runs before ++ runs after :=
  List.splitBy_append apart

section Run

variable {before run rest : List Char}

theorem Stretch.apart_letters (stretch : Stretch isLetter before run rest) : Apart run rest := by
  intro a last b head
  have letter := stretch.inside a (List.mem_of_mem_getLast? last)
  exact joined_eq_false (.inr (stretch.ends b head)) (.inl (isNumeral_of_isLetter letter))

theorem Stretch.apart_numerals (stretch : Stretch isNumeral before run rest) : Apart run rest := by
  intro a last b head
  have numeral := stretch.inside a (List.mem_of_mem_getLast? last)
  exact joined_eq_false (.inl (isLetter_of_isNumeral numeral)) (.inr (stretch.ends b head))

theorem Stretch.apart_before (stretch : Stretch isNumeral before run rest) (after : List Char) :
    Apart before (run ++ after) := by
  obtain ⟨c, cs, rfl, numeral⟩ := stretch.exists_cons
  intro a last b head
  obtain rfl : c = b := by simpa using head
  exact joined_eq_false (.inr (isLetter_of_isNumeral numeral)) (.inl (stretch.starts a last))

theorem runs_run (nonempty : run ≠ []) (inside : ∀ a ∈ run, ∀ b ∈ run, joined a b)
    (apart : Apart run rest) : runs (run ++ rest) = run :: runs rest := by
  have chain : run.IsChain (joined · ·) :=
    (List.pairwise_of_forall_mem_list inside).isChain
  rw [runs_append apart, runs, List.splitBy_of_isChain nonempty chain, List.singleton_append]

theorem runs_letters (stretch : Stretch isLetter before run rest) :
    runs (run ++ rest) = run :: runs rest := by
  refine runs_run stretch.nonempty ?_ stretch.apart_letters
  intro a left b right
  exact joined_iff.mpr (.inl ⟨stretch.inside a left, stretch.inside b right⟩)

theorem runs_numerals (stretch : Stretch isNumeral before run rest) :
    runs (run ++ rest) = run :: runs rest := by
  refine runs_run stretch.nonempty ?_ stretch.apart_numerals
  intro a left b right
  exact joined_iff.mpr (.inr ⟨stretch.inside a left, stretch.inside b right⟩)

theorem runs_single {c : Char} (noLetter : isLetter c = false) (noNumeral : isNumeral c = false)
    (rest : List Char) : runs (c :: rest) = [c] :: runs rest := by
  rw [← List.singleton_append, runs_append (apart_single noLetter noNumeral rest)]
  rfl

end Run

theorem illegalHead?_illegal {c : Char} (illegal : Illegal c) (rest : List Char) :
    illegalHead? (runs (c :: rest)) = some c := by
  rw [runs_single illegal.2.1 (isNumeral_of_illegal illegal)]
  simp [illegalHead?, CharClass.of_illegal illegal]

theorem illegalHead?_legal {rest : List Char} (legal : ∀ c ∈ rest.head?, ¬Illegal c) :
    illegalHead? (runs rest) = none := by
  cases rest with
  | nil => rfl
  | cons c rest =>
    have first := List.head_head_splitBy joined (List.cons_ne_nil c rest)
    cases split : runs (c :: rest) with
    | nil => rfl
    | cons run more =>
      simp only [runs] at split
      cases run with
      | nil => rfl
      | cons d run =>
        simp only [split, List.head_cons] at first
        subst first
        have other : CharClass.of d ≠ .illegal := fun same =>
          legal d rfl (CharClass.of_eq_illegal.mp same)
        simp only [illegalHead?]

namespace Token

/-- The tokens of a text that starts at a position. -/
def ofChars (pos : Nat) (text : List Char) : Except Fault (List Token) := ofRuns pos (runs text)

/-- What is read at a run, by the class of its first character: `next?` is the illegal character
behind the run, if there is one, and `later` what is read behind it. -/
def atRun (pos : Nat) (c : Char) (cs : List Char) (next? : Option Char)
    (later : Except Fault (List Token)) : CharClass → Except Fault (List Token)
  | .blank => later
  | .letter =>
    (⟨.ofWord (String.ofList (c :: cs)), String.ofList (c :: cs), none, pos⟩ :: ·) <$> later
  | .symbol kind => (⟨kind, String.ofList (c :: cs), none, pos⟩ :: ·) <$> later
  | .illegal => .error (.illegalCharacter c pos)
  | .numeral =>
    match Number.ofText? (c :: cs), next? with
    | some x, _ => (⟨.number, String.ofList (c :: cs), some x, pos⟩ :: ·) <$> later
    | none, some illegal => .error (.illegalCharacter illegal (pos + (c :: cs).length))
    | none, none => .error (.malformedNumber (String.ofList (c :: cs)) pos)

section AtRun

variable {c : Char} {cs : List Char} (pos : Nat) (next? : Option Char)
  (later : Except Fault (List Token))

theorem atRun_number {x : Number} (value : Number.ofText? (c :: cs) = some x) :
    atRun pos c cs next? later .numeral =
      (⟨.number, String.ofList (c :: cs), some x, pos⟩ :: ·) <$> later := by
  simp only [atRun, value]

theorem atRun_malformed (malformed : Number.ofText? (c :: cs) = none) :
    atRun pos c cs next? later .numeral = .error (
      match next? with
      | some illegal => .illegalCharacter illegal (pos + (c :: cs).length)
      | none => .malformedNumber (String.ofList (c :: cs)) pos) := by
  simp only [atRun, malformed]
  cases next? <;> rfl

/-- A run that is read does not depend on what is behind it, but for the tokens read there. -/
theorem exists_atRun_append {first : Except Fault (List Token)} {cls : CharClass}
    {tokens : List Token} (read : atRun pos c cs next? first cls = .ok tokens) :
    ∃ inner, first = .ok inner ∧ ∀ next? later,
      atRun pos c cs next? ((inner ++ ·) <$> later) cls = (tokens ++ ·) <$> later := by
  cases cls with
  | blank => exact ⟨tokens, read, fun _ _ => rfl⟩
  | illegal => cases read
  | letter =>
    obtain ⟨inner, behind, rfl⟩ := map_eq_ok.mp read
    exact ⟨inner, behind, fun _ _ => Functor.map_map _ _ _⟩
  | symbol kind =>
    obtain ⟨inner, behind, rfl⟩ := map_eq_ok.mp read
    exact ⟨inner, behind, fun _ _ => Functor.map_map _ _ _⟩
  | numeral =>
    cases value : Number.ofText? (c :: cs) with
    | none =>
      rw [atRun_malformed pos next? first value] at read
      cases read
    | some x =>
      rw [atRun_number pos next? first value] at read
      obtain ⟨inner, behind, rfl⟩ := map_eq_ok.mp read
      refine ⟨inner, behind, fun next? later => ?_⟩
      rw [atRun_number pos next? _ value, Functor.map_map]
      rfl

end AtRun

theorem ofRuns_cons (pos : Nat) (c : Char) (cs : List Char) (rest : List (List Char)) :
    ofRuns pos ((c :: cs) :: rest) = atRun pos c cs (illegalHead? rest)
      (ofRuns (pos + (c :: cs).length) rest) (CharClass.of c) := by
  rw [ofRuns]
  cases CharClass.of c with
  | numeral =>
    cases value : Number.ofText? (c :: cs) with
    | none =>
      rw [atRun_malformed pos _ _ value]
      cases illegalHead? rest <;> rfl
    | some x => rw [atRun_number pos _ _ value]
  | _ => rfl

theorem ofChars_eq (pos : Nat) (text : List Char) : ofChars pos text = ofRuns pos (runs text) :=
  rfl

theorem ofText_eq (text : String) : ofText text = ofChars 0 text.toList := rfl

section Steps

variable {c : Char} {before run rest : List Char} (pos : Nat)

theorem ofChars_nil : ofChars pos [] = .ok [] := rfl

theorem ofChars_blank (blank : isBlank c) (rest : List Char) :
    ofChars pos (c :: rest) = ofChars (pos + 1) rest := by
  rw [ofChars_eq, runs_single (isLetter_of_isBlank blank) (isNumeral_of_isBlank blank),
    ofRuns_cons, CharClass.of_blank blank]
  rfl

theorem ofChars_word (stretch : Stretch isLetter before run rest) :
    ofChars pos (run ++ rest) =
      (⟨.ofWord (String.ofList run), String.ofList run, none, pos⟩ :: ·) <$>
        ofChars (pos + run.length) rest := by
  obtain ⟨c, cs, rfl, letter⟩ := stretch.exists_cons
  rw [ofChars_eq, runs_letters stretch, ofRuns_cons, CharClass.of_letter letter]
  rfl

theorem ofChars_symbol {kind : Kind} (symbol : Kind.ofSymbol? c = some kind) (rest : List Char) :
    ofChars pos (c :: rest) =
      (⟨kind, String.ofList [c], none, pos⟩ :: ·) <$> ofChars (pos + 1) rest := by
  obtain ⟨_, noLetter, noNumeral⟩ := classes_of_symbol symbol
  rw [ofChars_eq, runs_single noLetter noNumeral, ofRuns_cons, CharClass.of_symbol symbol]
  rfl

theorem ofChars_number (stretch : Stretch isNumeral before run rest) {x : Number}
    (value : Number.ofText? run = some x) :
    ofChars pos (run ++ rest) =
      (⟨.number, String.ofList run, some x, pos⟩ :: ·) <$> ofChars (pos + run.length) rest := by
  obtain ⟨c, cs, rfl, numeral⟩ := stretch.exists_cons
  rw [ofChars_eq, runs_numerals stretch, ofRuns_cons, CharClass.of_numeral numeral,
    atRun_number pos _ _ value]
  rfl

theorem ofChars_unreadable (stretch : Stretch isNumeral before run rest)
    (malformed : Number.ofText? run = none) :
    ofChars pos (run ++ rest) = .error (
      match illegalHead? (runs rest) with
      | some illegal => .illegalCharacter illegal (pos + run.length)
      | none => .malformedNumber (String.ofList run) pos) := by
  obtain ⟨c, cs, rfl, numeral⟩ := stretch.exists_cons
  rw [ofChars_eq, runs_numerals stretch, ofRuns_cons, CharClass.of_numeral numeral,
    atRun_malformed pos _ _ malformed]

theorem exists_number_of_ofChars (stretch : Stretch isNumeral before run rest) {tokens : List Token}
    (read : ofChars pos (run ++ rest) = .ok tokens) : ∃ x, Number.ofText? run = some x := by
  cases value : Number.ofText? run with
  | none =>
    rw [ofChars_unreadable pos stretch value] at read
    cases read
  | some x => exact ⟨x, rfl⟩

theorem ofChars_illegal (illegal : Illegal c) (rest : List Char) :
    ofChars pos (c :: rest) = .error (.illegalCharacter c pos) := by
  rw [ofChars_eq, runs_single illegal.2.1 (isNumeral_of_illegal illegal), ofRuns_cons,
    CharClass.of_illegal illegal]
  rfl

end Steps

theorem ofRuns_append {pos : Nat} {first later : List (List Char)} {tokens : List Token}
    (read : ofRuns pos first = .ok tokens) :
    ofRuns pos (first ++ later) = (tokens ++ ·) <$> ofRuns (pos + first.flatten.length) later := by
  induction first generalizing pos tokens with
  | nil =>
    cases read
    exact (id_map _).symm
  | cons run first ih =>
    cases run with
    | nil => exact ih read
    | cons c cs =>
      have size : pos + (c :: cs).length + first.flatten.length =
          pos + ((c :: cs) :: first).flatten.length := by
        simp only [List.flatten_cons, List.length_append]
        omega
      rw [ofRuns_cons] at read
      obtain ⟨inner, behind, whole⟩ := exists_atRun_append pos _ read
      rw [List.cons_append, ofRuns_cons, ih behind, whole, size]

/-- Behind a text that is read, reading goes on with the text behind it. -/
theorem ofChars_append {pos : Nat} {before after : List Char} (apart : Apart before after)
    {tokens : List Token} (read : ofChars pos before = .ok tokens) :
    ofChars pos (before ++ after) = (tokens ++ ·) <$> ofChars (pos + before.length) after := by
  have whole : (runs before).flatten = before := List.flatten_splitBy joined before
  rw [ofChars, runs_append apart, ofRuns_append read, whole]
  rfl

/-- Induction on the runs of a text: blanks, words, numerals, symbols and illegal characters. -/
@[elab_as_elim]
theorem runs_induction {motive : List Char → Prop} (nil : motive [])
    (blank : ∀ c rest, isBlank c → motive rest → motive (c :: rest))
    (word : ∀ run rest, Stretch isLetter [] run rest → motive rest → motive (run ++ rest))
    (numeral : ∀ run rest, Stretch isNumeral [] run rest → motive rest → motive (run ++ rest))
    (symbol : ∀ c kind rest, Kind.ofSymbol? c = some kind → motive rest → motive (c :: rest))
    (illegal : ∀ c rest, Illegal c → motive rest → motive (c :: rest))
    (text : List Char) : motive text := by
  induction size : text.length using Nat.strongRecOn generalizing text with
  | ind n ih =>
    subst size
    cases text with
    | nil => exact nil
    | cons c text =>
      have behind : motive text := ih _ (by simp) text rfl
      have shorter {p : Char → Bool} {run rest : List Char} (split : c :: text = run ++ rest)
          (stretch : Stretch p [] run rest) : motive rest := by
        have size := congrArg List.length split
        have := List.length_pos_iff.mpr stretch.nonempty
        simp only [List.length_append] at size
        exact ih _ (by omega) rest rfl
      rcases CharClass.cases c with isBlank | letter | isNumeral | ⟨kind, isSymbol⟩ | isIllegal
      · exact blank c text isBlank behind
      · obtain ⟨run, rest, split, stretch⟩ := Stretch.exists_of_head letter text
        rw [split]
        exact word run rest stretch (shorter split stretch)
      · obtain ⟨run, rest, split, stretch⟩ := Stretch.exists_of_head isNumeral text
        rw [split]
        exact numeral run rest stretch (shorter split stretch)
      · exact symbol c kind text isSymbol behind
      · exact illegal c text isIllegal behind

end Token

end Formula
