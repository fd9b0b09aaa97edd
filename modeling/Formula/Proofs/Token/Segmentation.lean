import Formula.Proofs.Token.Runs

/-!
The tokens of a text cut it into pieces: longest runs of letters, longest runs of numerals, and
single symbols, with nothing but blanks between them.
-/

namespace Formula

open Text Outcome

/-- The word that stands for the kind, where there is only one. -/
def Kind.keyword? : Kind → Option String
  | .function f => some f.name
  | .pi => some "pi"
  | .euler => some "e"
  | _ => none

def Kind.keywords : List String := ["ln", "sin", "cos", "tan", "sqrt", "pi", "e"]

theorem Kind.ofWord_keyword (word : String) :
    (ofWord word = .name ↔ word ∉ keywords) ∧
      (ofWord word = .name ∨ (ofWord word).keyword? = some word) := by
  by_cases mem : word ∈ keywords
  · simp only [keywords, List.mem_cons, List.not_mem_nil, or_false] at mem
    rcases mem with rfl | rfl | rfl | rfl | rfl | rfl | rfl <;> decide
  · have other : ofWord word = .name := by
      simp only [keywords, List.mem_cons, List.not_mem_nil, or_false, not_or] at mem
      obtain ⟨ln, sin, cos, tan, sqrt, pi, e⟩ := mem
      simp [ofWord, Elementary.all, Elementary.name, Ne.symm ln, Ne.symm sin, Ne.symm cos,
        Ne.symm tan, Ne.symm sqrt, pi, e]
    exact ⟨iff_of_true other mem, .inl other⟩

namespace Token

/-- The position behind a token. -/
def stop (t : Token) : Int := t.pos + t.text.length

/-- What a token is, between the texts before and after its own. -/
inductive Cut (before after : List Char) (t : Token) : Prop
  | number {x : Number} (kind : t.kind = .number)
    (run : Stretch isNumeral before t.text.toList after) (number : t.number = some x)
    (value : Number.ofText? t.text.toList = some x)
  | word (name : t.kind = .name ↔ t.text ∉ Kind.keywords)
    (keyword : t.kind = .name ∨ t.kind.keyword? = some t.text)
    (run : Stretch isLetter before t.text.toList after) (number : t.number = none)
  | symbol {c : Char} (text : t.text.toList = [c]) (kind : Kind.ofSymbol? c = some t.kind)
    (number : t.number = none)

/-- The tokens cut `text`, which stands behind `before`, into pieces. -/
structure Segments (before text : List Char) (tokens : List Token) : Prop where
  pieces : ∀ t ∈ tokens, ∃ start rest, before ++ text = start ++ t.text.toList ++ rest ∧
    t.pos = start.length ∧ t.Cut start rest
  behind : ∀ t ∈ tokens, before.length ≤ t.pos
  ordered : tokens.IsChain fun t next => t.stop ≤ next.pos
  covered : ∀ i (bound : i < (before ++ text).length), before.length ≤ i →
    (∀ t ∈ tokens, ¬(t.pos ≤ i ∧ i < t.stop)) → isBlank (before ++ text)[i]

theorem stop_eq {t : Token} {before run : List Char} (text : t.text.toList = run)
    (pos : t.pos = before.length) : t.stop = before.length + run.length := by
  rw [stop, pos, ← text, String.length_toList]

namespace Segments

variable {before run rest : List Char} {tokens : List Token}

theorem nil (before : List Char) : Segments before [] [] where
  pieces := by simp
  behind := by simp
  ordered := .nil
  covered i bound low := by
    simp only [List.append_nil] at bound
    omega

theorem blank {c : Char} (isBlank : Text.isBlank c)
    (later : Segments (before ++ [c]) rest tokens) : Segments before (c :: rest) tokens where
  pieces := by simpa using later.pieces
  behind t mem := by
    have := later.behind t mem
    simp only [List.length_append, List.length_singleton] at this
    omega
  ordered := later.ordered
  covered i bound low uncovered := by
    by_cases here : i = before.length
    · subst here
      simpa using isBlank
    · have := later.covered i (by simpa using bound) (by simp; omega) uncovered
      simpa using this

theorem cons {t : Token} (text : t.text.toList = run) (pos : t.pos = before.length)
    (cut : t.Cut before rest) (later : Segments (before ++ run) rest tokens) :
    Segments before (run ++ rest) (t :: tokens) where
  pieces u mem := by
    rcases List.mem_cons.mp mem with rfl | mem
    · exact ⟨before, rest, by simp [text], pos, cut⟩
    · simpa using later.pieces u mem
  behind u mem := by
    rcases List.mem_cons.mp mem with rfl | mem
    · omega
    · have := later.behind u mem
      simp only [List.length_append] at this
      omega
  ordered := by
    apply List.isChain_cons.mpr
    refine ⟨fun next first => ?_, later.ordered⟩
    have := later.behind next (List.mem_of_mem_head? first)
    simp only [List.length_append] at this
    have stops := stop_eq text pos
    omega
  covered i bound low uncovered := by
    have stops := stop_eq text pos
    have outside := uncovered t (by simp)
    have := later.covered i (by simpa using bound) (by simp; omega)
      fun u mem => uncovered u (by simp [mem])
    simpa using this

end Segments

/-- A run that begins behind a text to which it does not belong is a longest one. -/
theorem stretch_of_apart {p : Char → Bool} {before run rest : List Char}
    (together : ∀ a b, p a → p b → joined a b) (stretch : Stretch p [] run rest)
    (apart : Apart before (run ++ rest)) : Stretch p before run rest := by
  refine ⟨stretch.nonempty, stretch.inside, ?_, stretch.ends⟩
  obtain ⟨c, cs, rfl, inside⟩ := stretch.exists_cons
  intro a last
  apply Bool.eq_false_iff.mpr
  intro also
  have := apart a last c rfl
  simp [together a c also inside] at this

theorem segments_of_ofChars {before text : List Char} {tokens : List Token}
    (apart : Apart before text) (read : ofChars before.length text = .ok tokens) :
    Segments before text tokens := by
  induction text using runs_induction generalizing before tokens with
  | nil =>
    cases read
    exact .nil before
  | blank c rest isBlank ih =>
    rw [ofChars_blank _ isBlank] at read
    have apart' := (apart_blank isBlank rest).append_left (by simp) before
    exact .blank isBlank (ih apart' (by simpa using read))
  | word run rest stretch ih =>
    rw [ofChars_word _ stretch] at read
    obtain ⟨later, behind, rfl⟩ := map_eq_ok.mp read
    have longest := stretch_of_apart (fun a b left right => joined_iff.mpr (.inl ⟨left, right⟩))
      stretch apart
    obtain ⟨name, keyword⟩ := Kind.ofWord_keyword (String.ofList run)
    have apart' := stretch.apart_letters.append_left stretch.nonempty before
    exact .cons (by simp) rfl (.word name keyword (by simpa using longest) rfl)
      (ih apart' (by simpa using behind))
  | numeral run rest stretch ih =>
    obtain ⟨x, value⟩ := exists_number_of_ofChars _ stretch read
    rw [ofChars_number _ stretch value] at read
    obtain ⟨later, behind, rfl⟩ := map_eq_ok.mp read
    have longest := stretch_of_apart (fun a b left right => joined_iff.mpr (.inr ⟨left, right⟩))
      stretch apart
    have apart' := stretch.apart_numerals.append_left stretch.nonempty before
    exact .cons (by simp) rfl (.number rfl (by simpa using longest) rfl (by simpa using value))
      (ih apart' (by simpa using behind))
  | symbol c kind rest symbol ih =>
    rw [ofChars_symbol _ symbol] at read
    obtain ⟨later, behind, rfl⟩ := map_eq_ok.mp read
    have apart' := (apart_symbol symbol rest).append_left (by simp) before
    have text : (String.ofList [c]).toList = [c] := String.toList_ofList
    have next := ih apart' (by simpa using behind)
    have whole := Segments.cons (t := ⟨kind, String.ofList [c], none, before.length⟩) text rfl
      (.symbol text symbol rfl) next
    exact whole
  | illegal c rest illegal ih =>
    rw [ofChars_illegal _ illegal] at read
    cases read

/-- A text that is read is cut into its tokens: each stands where it says and is of a kind that
fits its text, they follow each other, and what none of them covers is blank. -/
theorem segments_of_ofText {text : String} {tokens : List Token}
    (read : ofText text = .ok tokens) :
    (∀ t ∈ tokens, ∃ before after, text.toList = before ++ t.text.toList ++ after ∧
      t.pos = before.length ∧ t.Cut before after) ∧
    (tokens.IsChain fun t next => t.stop ≤ next.pos) ∧
    ∀ i (bound : i < text.toList.length),
      (∀ t ∈ tokens, ¬(t.pos ≤ i ∧ i < t.stop)) → isBlank text.toList[i] := by
  have segments : Segments [] text.toList tokens := segments_of_ofChars (apart_nil _) read
  refine ⟨segments.pieces, segments.ordered, ?_⟩
  intro i bound uncovered
  exact segments.covered i bound (Nat.zero_le i) uncovered

/-- The tokens of `x2 +sin`. -/
def nameBesideNumber : List Token :=
  [⟨.name, "x", none, 0⟩, ⟨.number, "2", some (.finite false ⟨0x4000000000000000, by decide⟩), 1⟩,
    ⟨.operator .add, "+", none, 3⟩, ⟨.function .sin, "sin", none, 4⟩]

theorem segments_of_nameBesideNumber :
    ofText "x2 +sin" = .ok nameBesideNumber ∧
      (∃ before after, "x2 +sin".toList = before ++ ['2'] ++ after ∧ before.length = 1 ∧
        Stretch isNumeral before ['2'] after) ∧
      isBlank ' ' := by
  have read : ofText "x2 +sin" = .ok nameBesideNumber := by decide
  obtain ⟨pieces, _, covered⟩ := segments_of_ofText read
  refine ⟨read, ?_, ?_⟩
  · obtain ⟨before, after, whole, pos, cut⟩ :=
      pieces ⟨.number, "2", some (.finite false ⟨0x4000000000000000, by decide⟩), 1⟩
        (by decide)
    refine ⟨before, after, whole, (Int.ofNat_inj.mp pos).symm, ?_⟩
    cases cut with
    | number kind run number value => exact run
    | word name keyword run number => cases number
    | symbol text kind number => cases number
  · exact covered 2 (by decide) (by decide)

end Token

end Formula
