import Formula.Proofs.Reading.Likeness
import Formula.Proofs.Reading.Printed

/-!
White space between tokens. Main statement: the texts of the tokens, written with any white space
around them, are read like the text that the tokens come from; only two words or two numbers have
to be kept apart.
-/

namespace Formula

open Text Outcome

/-- Words are names and keywords. -/
def Kind.IsWord (kind : Kind) : Prop := kind = .name ∨ kind.keyword?.isSome

namespace Token

/-- A token without its place. -/
def unplaced (t : Token) : Token := ⟨t.kind, t.text, t.number, 0⟩

/-- The texts of the two tokens are one run if nothing stands between them. -/
def Merges (t next : Token) : Prop :=
  t.kind.IsWord ∧ next.kind.IsWord ∨ t.kind = .number ∧ next.kind = .number

/-- The texts of tokens, each with a gap before it, and the gap behind the last. -/
def spaced (last : List Char) : List (List Char × Token) → List Char
  | [] => last
  | (gap, t) :: rest => gap ++ (t.text.toList ++ spaced last rest)

theorem ofWord_of_keyword {word : String} {kind : Kind}
    (name : kind = .name ↔ word ∉ Kind.keywords)
    (keyword : kind = .name ∨ kind.keyword? = some word) : Kind.ofWord word = kind := by
  by_cases isName : kind = .name
  · rw [isName]
    exact (Kind.ofWord_keyword word).1.mpr (name.mp isName)
  · have fits := keyword.resolve_left isName
    cases kind with
    | function f =>
      cases fits
      exact f.ofWord_name
    | pi =>
      cases fits
      rfl
    | euler =>
      cases fits
      rfl
    | _ => cases fits

namespace Cut

variable {before after : List Char} {t next : Token} {c : Char}

theorem nonempty (cut : t.Cut before after) : t.text.toList ≠ [] := by
  cases cut with
  | number _ run _ _ => exact run.nonempty
  | word _ _ run _ => exact run.nonempty
  | symbol text _ _ => simp [text]

theorem isWord_of_letter (cut : t.Cut before after) (mem : c ∈ t.text.toList)
    (letter : isLetter c) : t.kind.IsWord := by
  cases cut with
  | number _ run _ _ => simp [isLetter_of_isNumeral (run.inside c mem)] at letter
  | word _ keyword _ _ => exact keyword.imp_right fun fits => by rw [fits]; rfl
  | symbol text kind _ =>
    obtain rfl : c = _ := by simpa [text] using mem
    simp [(classes_of_symbol kind).2.1] at letter

theorem isNumber_of_numeral (cut : t.Cut before after) (mem : c ∈ t.text.toList)
    (numeral : isNumeral c) : t.kind = .number := by
  cases cut with
  | number kind _ _ _ => exact kind
  | word _ _ run _ => simp [isNumeral_of_isLetter (run.inside c mem)] at numeral
  | symbol text kind _ =>
    obtain rfl : c = _ := by simpa [text] using mem
    simp [(classes_of_symbol kind).2.2] at numeral

/-- The text of a token is that token, wherever it stands. -/
theorem ofChars_text (cut : t.Cut before after) (pos : Nat) :
    ofChars pos t.text.toList = .ok [⟨t.kind, t.text, t.number, pos⟩] := by
  cases cut with
  | number kind run number value =>
    rw [ofChars_numerals pos run.nonempty run.inside value, String.ofList_toList, kind, number]
  | word name keyword run number =>
    rw [ofChars_letters pos t.text run.nonempty run.inside, ofWord_of_keyword name keyword, number]
  | @symbol c text kind number =>
    have written : String.ofList [c] = t.text := by rw [← text, String.ofList_toList]
    rw [text, ofChars_symbol pos kind, ofChars_nil, written, number]
    rfl

/-- Tokens that do not merge can stand side by side. -/
theorem apart {before' after' : List Char} (cut : t.Cut before after)
    (cut' : next.Cut before' after') (separate : ¬t.Merges next) (rest : List Char) :
    Apart t.text.toList (next.text.toList ++ rest) := by
  intro a last b head
  have memLeft := List.mem_of_mem_getLast? last
  have memRight : b ∈ next.text.toList := by
    rw [List.head?_append_of_ne_nil _ cut'.nonempty] at head
    exact List.mem_of_mem_head? head
  apply Bool.eq_false_iff.mpr
  intro together
  apply separate
  rcases joined_iff.mp together with ⟨left, right⟩ | ⟨left, right⟩
  · exact .inl ⟨cut.isWord_of_letter memLeft left, cut'.isWord_of_letter memRight right⟩
  · exact .inr ⟨cut.isNumber_of_numeral memLeft left, cut'.isNumber_of_numeral memRight right⟩

end Cut

theorem ofChars_gap {gap : List Char} (blank : ∀ c ∈ gap, isBlank c) (pos : Nat)
    (rest : List Char) : ofChars pos (gap ++ rest) = ofChars (pos + gap.length) rest := by
  induction gap generalizing pos with
  | nil => rfl
  | cons c gap ih =>
    rw [List.cons_append, ofChars_blank pos (blank c (by simp)),
      ih (fun d mem => blank d (by simp [mem])), List.length_cons]
    congr 1
    omega

theorem apart_gap {gap : List Char} (blank : ∀ c ∈ gap, isBlank c) (nonempty : gap ≠ [])
    (before rest : List Char) : Apart before (gap ++ rest) := by
  obtain ⟨c, gap, rfl⟩ := List.exists_cons_of_ne_nil nonempty
  have isBlank := blank c (by simp)
  exact apart_cons (isLetter_of_isBlank isBlank) (isNumeral_of_isBlank isBlank) before _

section Spaced

variable {pieces : List (List Char × Token)} {last : List Char}

/-- Tokens that come from a text are found again in any spacing that keeps them apart. -/
theorem ofChars_spaced (cuts : ∀ piece ∈ pieces, ∃ before after, piece.2.Cut before after)
    (gaps : ∀ piece ∈ pieces, ∀ c ∈ piece.1, isBlank c) (lastGap : ∀ c ∈ last, isBlank c)
    (separate : pieces.IsChain fun piece next => piece.2.Merges next.2 → next.1 ≠ [])
    (pos : Nat) :
    ∃ tokens, ofChars pos (spaced last pieces) = .ok tokens ∧
      tokens.map unplaced = pieces.map fun piece => piece.2.unplaced := by
  induction pieces generalizing pos with
  | nil =>
    refine ⟨[], ?_, rfl⟩
    have blanks := ofChars_gap lastGap pos []
    rwa [List.append_nil] at blanks
  | cons piece rest ih =>
    obtain ⟨gap, t⟩ := piece
    obtain ⟨before, after, cut⟩ := cuts (gap, t) (by simp)
    -- what follows does not join the run: it is a blank, or a token that does not merge with this
    have apart : Apart t.text.toList (spaced last rest) := by
      cases rest with
      | nil =>
        by_cases empty : last = []
        · simp [Apart, spaced, empty]
        · simpa [spaced] using apart_gap lastGap empty t.text.toList []
      | cons piece' rest' =>
        obtain ⟨gap', t'⟩ := piece'
        by_cases empty : gap' = []
        · subst empty
          obtain ⟨before', after', cut'⟩ := cuts ([], t') (by simp)
          have unmerged : ¬t.Merges t' := fun merges =>
            (List.isChain_cons_cons.mp separate).1 merges rfl
          exact cut.apart cut' unmerged _
        · exact apart_gap (gaps (gap', t') (by simp)) empty _ _
    obtain ⟨tokens, read, same⟩ := ih (fun p mem => cuts p (by simp [mem]))
      (fun p mem => gaps p (by simp [mem])) separate.tail (pos + gap.length + t.text.toList.length)
    refine ⟨⟨t.kind, t.text, t.number, (pos + gap.length : Nat)⟩ :: tokens, ?_, ?_⟩
    · rw [spaced, ofChars_gap (gaps (gap, t) (by simp)),
        ofChars_append apart (cut.ofChars_text _), read]
      rfl
    · rw [List.map_cons, List.map_cons, same]
      rfl

end Spaced

end Token

/-- A fault without the places in it. -/
def Fault.unplaced : Fault → Fault
  | .illegalCharacter character _ => .illegalCharacter character 0
  | .malformedNumber text _ => .malformedNumber text 0
  | .unmatchedClosing _ => .unmatchedClosing 0
  | .notALeaf token => .notALeaf token.unplaced
  | fault => fault

theorem Fault.kind_unplaced (fault : Fault) : fault.unplaced.kind = fault.kind := by
  cases fault <;> rfl

/-- Tokens and faults are related that differ at most in their places. -/
def Likeness.upToPlace : Likeness where
  token t t' := t.unplaced = t'.unplaced
  fault f f' := f.unplaced = f'.unplaced
  tree := Eq
  kind same := (Token.mk.inj same).1
  leaf {t t'} same := by
    obtain ⟨kind, text, number, pos⟩ := t
    obtain ⟨kind', text', number', pos'⟩ := t'
    obtain ⟨rfl, rfl, rfl, -⟩ := Token.mk.inj same
    cases kind <;> cases number <;> first | exact .ok rfl | exact .error rfl
  missingArgument same := congrArg Fault.missingArgument (Token.mk.inj same).2.1
  unmatchedClosing _ := rfl
  refl _ := rfl
  binary _ _ _ _ _ sameLeft sameRight := by rw [sameLeft, sameRight]
  unary _ _ _ same := by rw [same]

/-- The places of tokens have no say in their tree, and in the fault only for the place that it
names. -/
theorem Expr.ofTokens_unplaced (limit : Int) {tokens tokens' : List Token}
    (same : tokens.map Token.unplaced = tokens'.map Token.unplaced) :
    Alike (fun f f' => f.unplaced = f'.unplaced) Eq (ofTokens limit tokens)
      (ofTokens limit tokens') := by
  have equal : List.Forall₂ Eq (tokens.map Token.unplaced) (tokens'.map Token.unplaced) := by
    rw [same]
    exact List.forall₂_same.mpr fun _ _ => rfl
  rw [List.forall₂_map_left_iff, List.forall₂_map_right_iff] at equal
  have form (e e' : Expr) (same : e = e') : e.exponentialForm = e'.exponentialForm := by rw [same]
  exact Likeness.upToPlace.ofTokensWithin limit _ form equal

namespace Token

/-- White space between tokens is irrelevant: if a text is read as tokens, then their texts with
white space around them are read as the same tokens in other places, provided that something
stands between two words and between two numbers. The tree is the same, or the fault is, up to the
place that it names. -/
theorem ofText_spaced {text : String} {pieces : List (List Char × Token)}
    (read : ofText text = .ok (pieces.map Prod.snd)) {last : List Char}
    (gaps : ∀ piece ∈ pieces, ∀ c ∈ piece.1, isBlank c) (lastGap : ∀ c ∈ last, isBlank c)
    (separate : pieces.IsChain fun piece next => piece.2.Merges next.2 → next.1 ≠ []) :
    (∃ tokens, ofText (String.ofList (spaced last pieces)) = .ok tokens ∧
      tokens.map unplaced = pieces.map fun piece => piece.2.unplaced) ∧
    ∀ limit,
      (∃ t, Expr.ofText limit text = .ok t ∧
        Expr.ofText limit (String.ofList (spaced last pieces)) = .ok t) ∨
      ∃ fault fault', Expr.ofText limit text = .error fault ∧
        Expr.ofText limit (String.ofList (spaced last pieces)) = .error fault' ∧
        fault'.kind = fault.kind ∧ fault'.unplaced = fault.unplaced := by
  have segments : Segments [] text.toList (pieces.map Prod.snd) :=
    segments_of_ofChars (apart_nil _) read
  have cuts (piece : List Char × Token) (mem : piece ∈ pieces) :
      ∃ before after, piece.2.Cut before after := by
    obtain ⟨before, after, _, _, cut⟩ := segments.pieces piece.2 (List.mem_map_of_mem mem)
    exact ⟨before, after, cut⟩
  obtain ⟨tokens, readSpaced, same⟩ := ofChars_spaced cuts gaps lastGap separate 0
  rw [← String.toList_ofList (l := spaced last pieces), ← ofText_eq] at readSpaced
  refine ⟨⟨tokens, readSpaced, same⟩, fun limit => ?_⟩
  have places : (pieces.map Prod.snd).map unplaced = tokens.map unplaced := by
    rw [same, List.map_map]
    rfl
  have first : Expr.ofText limit text = Expr.ofTokens limit (pieces.map Prod.snd) := by
    rw [Expr.ofText, read]
    rfl
  have second : Expr.ofText limit (String.ofList (spaced last pieces)) =
      Expr.ofTokens limit tokens := by
    rw [Expr.ofText, readSpaced]
    rfl
  rw [first, second]
  obtain ⟨t, t', left, right, rfl⟩ | ⟨fault, fault', left, right, sameFault⟩ :=
    (Expr.ofTokens_unplaced limit places).cases
  · exact .inl ⟨t, left, right⟩
  · have sameKind : fault'.kind = fault.kind := by
      rw [← fault'.kind_unplaced, ← sameFault, fault.kind_unplaced]
    exact .inr ⟨fault, fault', left, right, sameKind, sameFault.symm⟩

theorem rank_two : 0x4000000000000000 < magnitudes := by decide

/-- The tokens of `2x)`. -/
def unopenedGroup : List Token :=
  [⟨.number, "2", some (.finite false ⟨0x4000000000000000, rank_two⟩), 0⟩,
    ⟨.name, "x", none, 1⟩, ⟨.closing, ")", none, 2⟩]

theorem ofText_spaced_unopenedGroup :
    ofText "2x)" = .ok unopenedGroup ∧
      (∃ tokens, ofText " 2x\t) " = .ok tokens ∧
        tokens.map unplaced = unopenedGroup.map unplaced) ∧
      Expr.ofText 0 "2x)" = .error (.unmatchedClosing 2) ∧
      ∃ fault, Expr.ofText 0 " 2x\t) " = .error fault ∧ fault.kind = "invalid_expression" ∧
        fault.unplaced = .unmatchedClosing 0 := by
  let pieces : List (List Char × Token) := [[' '], [], ['\t']].zip unopenedGroup
  have read : ofText "2x)" = .ok (pieces.map Prod.snd) := by decide
  have space : isBlank ' ' := by decide
  have tab : isBlank '\t' := by decide
  have gaps : ∀ piece ∈ pieces, ∀ c ∈ piece.1, isBlank c := by
    simp [pieces, unopenedGroup, space, tab]
  have lastGap : ∀ c ∈ [' '], isBlank c := by simp [space]
  have separate : pieces.IsChain fun piece next => piece.2.Merges next.2 → next.1 ≠ [] := by
    simp [pieces, unopenedGroup, Merges, Kind.IsWord, Kind.keyword?]
  obtain ⟨tokens, outcomes⟩ := ofText_spaced read gaps lastGap separate
  have written : String.ofList (spaced [' '] pieces) = " 2x\t) " := by decide
  rw [written] at tokens outcomes
  have unmatched : Expr.ofText 0 "2x)" = .error (.unmatchedClosing 2) := by
    rw [Expr.ofText, read]
    rfl
  refine ⟨read, tokens, unmatched, ?_⟩
  obtain ⟨t, isTree, _⟩ | ⟨fault, fault', isFault, spacedFault, kind, unplaced⟩ := outcomes 0
  · rw [unmatched] at isTree
    cases isTree
  · obtain rfl : Fault.unmatchedClosing 2 = fault := Except.error.inj (unmatched.symm.trans isFault)
    exact ⟨fault', spacedFault, kind, unplaced⟩

end Token

end Formula
