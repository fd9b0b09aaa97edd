import Formula.Text.Blank
import Formula.Text.Letter
import Formula.Number.Reading
import Formula.Fault

/-!
From text to tokens. The text falls into runs: neighbouring letters belong together, and so do
neighbouring numerals; every other character is a run of its own. Each run but the blanks is one
token.
-/

namespace Formula

open Text

/-- What a character can be part of; the first class that fits counts. -/
inductive CharClass where
  | blank
  | letter
  | numeral
  | symbol (kind : Kind)
  | illegal

def CharClass.of (c : Char) : CharClass :=
  if isBlank c then .blank
  else if isLetter c then .letter
  else if isNumeric c || c == '.' then .numeral
  else
    match Kind.ofSymbol? c with
    | some kind => .symbol kind
    | none => .illegal

/-- Whether two neighbouring characters belong to one run. -/
def joined (a b : Char) : Bool :=
  match CharClass.of a, CharClass.of b with
  | .letter, .letter => true
  | .numeral, .numeral => true
  | _, _ => false

def runs (text : List Char) : List (List Char) := text.splitBy joined

/-- The illegal character that a list of runs starts with. -/
def illegalHead? : List (List Char) → Option Char
  | (c :: _) :: _ =>
    match CharClass.of c with
    | .illegal => some c
    | _ => none
  | _ => none

namespace Token

/-- Reads the runs from left to right, the first of them at `pos`. A run of numerals is only
looked into when the character after it is legal, so an illegal one directly behind a malformed
run is reported in place of the run. -/
def ofRuns (pos : Nat) : List (List Char) → Except Fault (List Token)
  | [] => .ok []
  | [] :: rest => ofRuns pos rest
  | (c :: cs) :: rest =>
    let run := String.ofList (c :: cs)
    let next := pos + (c :: cs).length
    match CharClass.of c with
    | .blank => ofRuns next rest
    | .letter => (⟨.ofWord run, run, none, pos⟩ :: ·) <$> ofRuns next rest
    | .symbol kind => (⟨kind, run, none, pos⟩ :: ·) <$> ofRuns next rest
    | .illegal => .error (.illegalCharacter c pos)
    | .numeral =>
      match Number.ofText? (c :: cs) with
      | some number => (⟨.number, run, some number, pos⟩ :: ·) <$> ofRuns next rest
      | none =>
        match illegalHead? rest with
        | some illegal => .error (.illegalCharacter illegal next)
        | none => .error (.malformedNumber run pos)

/-- The tokens of a text. -/
def ofText (text : String) : Except Fault (List Token) := ofRuns 0 (runs text.toList)

end Token

end Formula
