import Formula.Proofs.Number.Numeral
import Formula.Proofs.Token.Runs

/-!
Which texts have no tokens, and which fault is reported of them. Main statement: of an illegal
character and a malformed number the one further left is reported, where a number counts from the
character behind it.
-/

namespace Formula

open Text Outcome

/-- `before` is what a text has before its first illegal character. -/
def FirstIllegal (text before : List Char) (c : Char) : Prop :=
  (∃ after, text = before ++ c :: after) ∧ Illegal c ∧ ∀ d ∈ before, ¬Illegal d

/-- `run` is a longest run of numerals of a text and is no number; `before` stands before it. -/
def MalformedRun (text before run : List Char) : Prop :=
  ∃ after, text = before ++ run ++ after ∧ Stretch isNumeral before run after ∧
    Number.Malformed run

def FirstMalformed (text before run : List Char) : Prop :=
  MalformedRun text before run ∧
    ∀ before' run', MalformedRun text before' run' → before.length ≤ before'.length

theorem exists_firstIllegal {text : List Char} {c : Char} (mem : c ∈ text) (illegal : Illegal c) :
    ∃ before d, FirstIllegal text before d := by
  obtain ⟨before, rest, rfl, legal, ends⟩ := exists_span (fun d => decide ¬Illegal d) text
  cases rest with
  | nil =>
    rw [List.append_nil] at mem
    exact absurd illegal (by simpa using legal c mem)
  | cons d after => exact ⟨before, d, ⟨after, rfl⟩, by simpa using ends d, by simpa using legal⟩

theorem FirstIllegal.length_le {text before front back : List Char} {c d : Char}
    (first : FirstIllegal text before c) (split : text = front ++ d :: back)
    (illegal : Illegal d) : before.length ≤ front.length := by
  obtain ⟨⟨after, whole⟩, _, legal⟩ := first
  rcases List.append_eq_append_iff.mp (whole.symm.trans split) with
    ⟨more, rfl, _⟩ | ⟨more, rfl, same⟩
  · simp
  · cases more with
    | nil => simp
    | cons e more =>
      obtain ⟨rfl, -⟩ := List.cons.inj same
      exact absurd illegal (legal d (by simp))

theorem exists_firstMalformed {text before run : List Char}
    (malformed : MalformedRun text before run) :
    ∃ before' run', FirstMalformed text before' run' := by
  induction size : before.length using Nat.strongRecOn generalizing before run with
  | ind n ih =>
    subst size
    by_cases least : ∀ before' run', MalformedRun text before' run' →
        before.length ≤ before'.length
    · exact ⟨before, run, malformed, least⟩
    · simp only [not_forall, Nat.not_le] at least
      obtain ⟨before', run', malformed', less⟩ := least
      exact ih _ less malformed' rfl

theorem MalformedRun.prepend {front text before run : List Char} (apart : Apart front text)
    (malformed : MalformedRun text before run) :
    MalformedRun (front ++ text) (front ++ before) run := by
  obtain ⟨after, rfl, stretch, noNumber⟩ := malformed
  refine ⟨after, by simp, ⟨stretch.nonempty, stretch.inside, ?_, stretch.ends⟩, noNumber⟩
  cases before with
  | nil =>
    obtain ⟨c, cs, rfl, numeral⟩ := stretch.exists_cons
    intro a last
    apply Bool.eq_false_iff.mpr
    intro also
    rw [List.append_nil] at last
    have := apart a last c rfl
    simp [joined_iff.mpr (.inr ⟨also, numeral⟩)] at this
  | cons b before =>
    intro a last
    rw [List.getLast?_append_of_ne_nil _ (by simp)] at last
    exact stretch.starts a last

theorem MalformedRun.append {text before run : List Char} (malformed : MalformedRun text before run)
    {back : List Char} (apart : Apart text back) : MalformedRun (text ++ back) before run := by
  obtain ⟨after, rfl, stretch, noNumber⟩ := malformed
  refine ⟨after ++ back, by simp, ⟨stretch.nonempty, stretch.inside, stretch.starts, ?_⟩, noNumber⟩
  cases after with
  | nil =>
    intro c head
    apply Bool.eq_false_iff.mpr
    intro also
    have last := List.getLast?_eq_some_getLast stretch.nonempty
    have numeral := stretch.inside _ (List.getLast_mem stretch.nonempty)
    have := apart (run.getLast stretch.nonempty)
      (by simp [List.getLast?_append_of_ne_nil _ stretch.nonempty, last]) c head
    simp [joined_iff.mpr (.inr ⟨numeral, also⟩)] at this
  | cons c after =>
    intro d head
    exact stretch.ends d head

namespace Token

/-- A text without illegal characters and malformed numbers is read. -/
theorem exists_ofChars {text : List Char} (legal : ∀ c ∈ text, ¬Illegal c)
    (wellFormed : ∀ before run, ¬MalformedRun text before run) (pos : Nat) :
    ∃ tokens, ofChars pos text = .ok tokens := by
  have behind {run rest : List Char} (apart : Apart run rest)
      (legal : ∀ c ∈ run ++ rest, ¬Illegal c)
      (wellFormed : ∀ before run', ¬MalformedRun (run ++ rest) before run') :
      (∀ c ∈ rest, ¬Illegal c) ∧ ∀ before run', ¬MalformedRun rest before run' :=
    ⟨fun c mem => legal c (by simp [mem]),
      fun before run' malformed => wellFormed _ _ (malformed.prepend apart)⟩
  induction text using runs_induction generalizing pos with
  | nil => exact ⟨[], rfl⟩
  | blank c rest isBlank ih =>
    obtain ⟨legal', wellFormed'⟩ := behind (apart_blank isBlank rest) legal wellFormed
    rw [ofChars_blank _ isBlank]
    exact ih legal' wellFormed' _
  | word run rest stretch ih =>
    obtain ⟨legal', wellFormed'⟩ := behind stretch.apart_letters legal wellFormed
    obtain ⟨tokens, read⟩ := ih legal' wellFormed' (pos + run.length)
    exact ⟨_, (ofChars_word _ stretch).trans (by rw [read]; rfl)⟩
  | numeral run rest stretch ih =>
    obtain ⟨legal', wellFormed'⟩ := behind stretch.apart_numerals legal wellFormed
    obtain ⟨tokens, read⟩ := ih legal' wellFormed' (pos + run.length)
    cases value : Number.ofText? run with
    | none =>
      have malformed := (Number.ofText?_eq_none_iff stretch.nonempty stretch.inside).mp value
      exact absurd ⟨rest, rfl, stretch, malformed⟩ (wellFormed [] run)
    | some x => exact ⟨_, (ofChars_number _ stretch value).trans (by rw [read]; rfl)⟩
  | symbol c kind rest symbol ih =>
    obtain ⟨legal', wellFormed'⟩ := behind (apart_symbol symbol rest) legal wellFormed
    obtain ⟨tokens, read⟩ := ih legal' wellFormed' (pos + 1)
    exact ⟨_, (ofChars_symbol _ symbol rest).trans (by rw [read]; rfl)⟩
  | illegal c rest illegal ih => exact absurd illegal (legal c (by simp))

end Token

section Fault

variable {text before run : List Char} {c : Char}

/-- Nothing is wrong before the first malformed number, if no illegal character is. -/
theorem FirstMalformed.exists_ofChars (first : FirstMalformed text before run)
    (legal : ∀ c ∈ before, ¬Illegal c) : ∃ tokens, Token.ofChars 0 before = .ok tokens := by
  obtain ⟨⟨after, rfl, stretch, _⟩, least⟩ := first
  refine Token.exists_ofChars legal ?_ 0
  rintro before' run' malformed
  have whole := malformed.append (stretch.apart_before after)
  have shorter := least before' run' (by simpa using whole)
  obtain ⟨after', rfl, stretch', _⟩ := malformed
  have := List.length_pos_iff.mpr stretch'.nonempty
  simp only [List.length_append] at shorter
  omega

/-- A malformed number that is not over before the first illegal character ends there. -/
theorem MalformedRun.eq_append {after : List Char} (illegal : Illegal c) {before' : List Char}
    (malformed : MalformedRun (before ++ c :: after) before' run)
    (starts : before'.length < before.length)
    (reaches : ¬before'.length + run.length < before.length) :
    before = before' ++ run ∧ Stretch isNumeral before' run (c :: after) := by
  obtain ⟨rest, split, stretch, _⟩ := malformed
  rcases List.append_eq_append_iff.mp split with ⟨more, same, behind⟩ | ⟨more, rfl, behind⟩
  · cases more with
    | nil =>
      rw [List.append_nil] at same
      rw [List.nil_append] at behind
      exact ⟨same.symm, behind ▸ stretch⟩
    | cons d more =>
      obtain ⟨rfl, -⟩ := List.cons.inj behind
      rcases List.append_eq_append_iff.mp same with ⟨front, rfl, inside⟩ | ⟨front, rfl, _⟩
      · have numeral := stretch.inside c (by simp [inside])
        simp [isNumeral_of_illegal illegal] at numeral
      · simp only [List.length_append] at starts
        omega
  · have : more = [] := by
      apply List.eq_nil_of_length_eq_zero
      simp only [List.length_append] at reaches
      omega
    subst this
    rw [List.nil_append] at behind
    exact ⟨List.append_nil _, behind ▸ stretch⟩

namespace Token

theorem ofChars_firstMalformed (first : FirstMalformed text before run)
    (earlier : ∀ before' c, FirstIllegal text before' c →
      before.length + run.length < before'.length) :
    ofChars 0 text = .error (.malformedNumber (String.ofList run) before.length) := by
  have behind (front back : List Char) {d : Char} (split : text = front ++ d :: back)
      (illegal : Illegal d) : before.length + run.length < front.length := by
    obtain ⟨before', d', first'⟩ := exists_firstIllegal (by simp [split] : d ∈ text) illegal
    have := earlier before' d' first'
    have := first'.length_le split illegal
    omega
  obtain ⟨after, whole, stretch, noNumber⟩ := first.1
  have legalBefore (d : Char) (mem : d ∈ before) : ¬Illegal d := by
    intro illegal
    obtain ⟨front, back, rfl⟩ := List.append_of_mem mem
    have := behind front (back ++ (run ++ after)) (by simp [whole]) illegal
    simp only [List.length_append] at this
    omega
  have legalBehind (d : Char) (head : d ∈ after.head?) : ¬Illegal d := by
    intro illegal
    obtain ⟨back, rfl⟩ := List.head?_eq_some_iff.mp head
    have := behind (before ++ run) back whole illegal
    simp at this
  obtain ⟨tokens, read⟩ := first.exists_ofChars legalBefore
  have unreadable := (Number.ofText?_eq_none_iff stretch.nonempty stretch.inside).mpr noNumber
  rw [whole, List.append_assoc, ofChars_append (stretch.apart_before after) read,
    ofChars_unreadable _ stretch unreadable, illegalHead?_legal legalBehind, Nat.zero_add]
  rfl

theorem ofChars_firstIllegal (first : FirstIllegal text before c)
    (later : ∀ before' run, FirstMalformed text before' run →
      ¬before'.length + run.length < before.length) :
    ofChars 0 text = .error (.illegalCharacter c before.length) := by
  obtain ⟨⟨after, rfl⟩, illegal, legal⟩ := first
  have apart := apart_illegal illegal before after
  by_cases wellFormed : ∀ before' run', ¬MalformedRun before before' run'
  · obtain ⟨tokens, read⟩ := Token.exists_ofChars legal wellFormed 0
    rw [ofChars_append apart read, ofChars_illegal _ illegal, Nat.zero_add]
    rfl
  · simp only [not_forall, not_not] at wellFormed
    obtain ⟨other, run', malformed⟩ := wellFormed
    obtain ⟨before', run, firstOne⟩ := exists_firstMalformed (malformed.append apart)
    have starts : before'.length < before.length := by
      have := firstOne.2 _ _ (malformed.append apart)
      obtain ⟨_, rfl, stretch, _⟩ := malformed
      have := List.length_pos_iff.mpr stretch.nonempty
      simp only [List.length_append]
      omega
    have noNumber : Number.Malformed run := by
      obtain ⟨_, _, _, noNumber⟩ := firstOne.1
      exact noNumber
    obtain ⟨rfl, stretch⟩ := firstOne.1.eq_append illegal starts (later _ _ firstOne)
    have unreadable := (Number.ofText?_eq_none_iff stretch.nonempty stretch.inside).mpr noNumber
    obtain ⟨tokens, read⟩ := firstOne.exists_ofChars fun d mem => legal d (by simp [mem])
    rw [List.append_assoc, ofChars_append (stretch.apart_before _) read,
      ofChars_unreadable _ stretch unreadable, illegalHead?_illegal illegal, Nat.zero_add,
      List.length_append]
    rfl

/-- A text has tokens if no character is illegal and no number malformed. Otherwise the first
malformed number is reported if it and the character behind it come before the first illegal
character, and else that character. -/
theorem ofText_fault (text : String) :
    ((∃ tokens, ofText text = .ok tokens) ↔
      (∀ c ∈ text.toList, ¬Illegal c) ∧ ∀ before run, ¬MalformedRun text.toList before run) ∧
    (∀ before run, FirstMalformed text.toList before run →
      (∀ before' c, FirstIllegal text.toList before' c →
        before.length + run.length < before'.length) →
      ofText text = .error (.malformedNumber (String.ofList run) before.length)) ∧
    ∀ before c, FirstIllegal text.toList before c →
      (∀ before' run, FirstMalformed text.toList before' run →
        ¬before'.length + run.length < before.length) →
      ofText text = .error (.illegalCharacter c before.length) := by
  refine ⟨⟨?_, ?_⟩, fun _ _ => ofChars_firstMalformed, fun _ _ => ofChars_firstIllegal⟩
  · rintro ⟨tokens, read⟩
    rw [ofText_eq] at read
    have noMalformed {before run : List Char} (first : FirstMalformed text.toList before run)
        (earlier : ∀ before' c, FirstIllegal text.toList before' c →
          before.length + run.length < before'.length) : False := by
      rw [ofChars_firstMalformed first earlier] at read
      cases read
    have legal (c : Char) (mem : c ∈ text.toList) : ¬Illegal c := by
      intro illegal
      obtain ⟨before, d, first⟩ := exists_firstIllegal mem illegal
      by_cases later : ∀ before' run, FirstMalformed text.toList before' run →
          ¬before'.length + run.length < before.length
      · rw [ofChars_firstIllegal first later] at read
        cases read
      · simp only [not_forall, not_not] at later
        obtain ⟨before', run, firstOne, less⟩ := later
        refine noMalformed firstOne fun before'' e first'' => ?_
        obtain ⟨⟨_, split⟩, illegal'', _⟩ := first''
        have := first.length_le split illegal''
        omega
    refine ⟨legal, fun before run malformed => ?_⟩
    obtain ⟨before', run', first⟩ := exists_firstMalformed malformed
    refine noMalformed first fun before'' c illegalOne => ?_
    obtain ⟨⟨_, split⟩, illegal, _⟩ := illegalOne
    exact absurd illegal (legal c (by simp [split]))
  · rintro ⟨legal, wellFormed⟩
    exact exists_ofChars legal wellFormed 0

/-- The dollar sign is reported where it ends the number with two points, and the number where a
blank ends it. -/
theorem ofText_twoPointsBeforeDollar :
    ofText "1.2.3$" = .error (.illegalCharacter '$' 5) ∧
      ofText "1.2.3 $" = .error (.malformedNumber "1.2.3" 0) := by
  have numerals : ∀ c ∈ "1.2.3".toList, isNumeral c := List.all_eq_true.mp rfl
  have illegal : Illegal '$' := by decide
  constructor
  · have first : FirstIllegal "1.2.3$".toList "1.2.3".toList '$' :=
      ⟨⟨[], rfl⟩, illegal, by simpa using
        (List.all_eq_true.mp rfl : ∀ d ∈ "1.2.3".toList, (!decide (Illegal d)) = true)⟩
    refine (ofText_fault "1.2.3$").2.2 "1.2.3".toList '$' first ?_
    rintro before run ⟨⟨after, split, stretch, _⟩, _⟩ inside
    have head : after.head? = some "1.2.3".toList[before.length + run.length] := by
      have whole : ("1.2.3".toList ++ ['$'])[before.length + run.length]? = after.head? := by
        rw [show "1.2.3".toList ++ ['$'] = "1.2.3$".toList from rfl, split,
          List.getElem?_append_right (by simp), List.head?_eq_getElem?]
        simp
      rw [← whole, List.getElem?_append_left inside, List.getElem?_eq_getElem inside]
    have numeral := numerals _ (List.getElem_mem inside)
    rw [stretch.ends _ head] at numeral
    cases numeral
  · have first : FirstMalformed "1.2.3 $".toList [] "1.2.3".toList :=
      ⟨⟨[' ', '$'], rfl, ⟨by decide, numerals, by simp, by rintro c ⟨⟩; rfl⟩,
        .inr (.inl (by decide))⟩, fun _ _ _ => Nat.zero_le _⟩
    have dollar : FirstIllegal "1.2.3 $".toList "1.2.3 ".toList '$' :=
      ⟨⟨[], rfl⟩, illegal, by simpa using
        (List.all_eq_true.mp rfl : ∀ d ∈ "1.2.3 ".toList, (!decide (Illegal d)) = true)⟩
    refine (ofText_fault "1.2.3 $").2.1 [] "1.2.3".toList first ?_
    rintro before c ⟨⟨after, split⟩, isIllegal, _⟩
    exact Nat.lt_of_succ_le (dollar.length_le split isIllegal)

end Token

end Fault

end Formula
