import Formula.Token.Basic

/-!
The ways in which a formula can fail to be read, each with what is known of the place.
-/

namespace Formula

inductive Fault where
  | illegalCharacter (character : Char) (pos : Nat)
  | malformedNumber (text : String) (pos : Nat)
  | unmatchedClosing (pos : Int)
  | unmatchedOpening
  | noOperator
  | missingArgument (function : String)
  | notALeaf (token : Token)
  | missingOperand
  | tooDeep (limit : Int)
  deriving DecidableEq

namespace Fault

/-- Whether the fault lies in the text itself, before there are tokens. -/
def isLexical : Fault → Bool
  | .illegalCharacter .. | .malformedNumber .. => true
  | _ => false

/-- The class of the fault as it is reported. -/
def kind : Fault → String
  | .illegalCharacter .. => "invalid_character"
  | .malformedNumber .. => "invalid_number"
  | .unmatchedClosing _ | .unmatchedOpening | .noOperator => "invalid_expression"
  | .missingArgument _ => "invalid_function_call"
  | .notALeaf _ => "invalid_token"
  | .missingOperand => "branch_evaluated_to_none"
  | .tooDeep _ => "nesting_too_deep"

def message : Fault → String
  | .illegalCharacter character _ => "Invalid character: " ++ Text.quoted character.toString
  | .malformedNumber text _ => "Invalid number: " ++ Text.quoted text
  | .unmatchedClosing pos => "Unmatched ')' at position " ++ toString pos
  | .unmatchedOpening => "Unmatched '(': missing closing parenthesis"
  | .noOperator => "Invalid expression"
  | .missingArgument function =>
    "Invalid function call: " ++ function ++ " expects a parenthesised argument"
  | .notALeaf token => "Invalid token: " ++ Text.quoted token.text
  | .missingOperand => "Branch evaluated to none: operator is missing an operand"
  | .tooDeep limit => "Expression nesting exceeds the maximum depth of " ++ toString limit

end Fault

end Formula
