import Formula.Limit
import Formula.Reading

/-!
The journal of a reading: what was split into tokens, what limit was refused, what was assembled.
-/

namespace Formula.Journal

inductive Channel where
  | tokenizer
  | settings
  | parser
  deriving DecidableEq

def Channel.name : Channel → String
  | .tokenizer => "pemdas.core.expression_lang.tokenizer"
  | .settings => "pemdas.core.settings"
  | .parser => "pemdas.core.expression_lang.parser"

inductive Level where
  | debug
  | warning
  deriving DecidableEq

def Level.name : Level → String
  | .debug => "DEBUG"
  | .warning => "WARNING"

structure Entry where
  channel : Channel
  level : Level
  message : String
  deriving DecidableEq

/-- The name of the setting for the limit. -/
def limitVariable : String := "PEMDAS_MAX_DEPTH"

def tokenized (text : String) (count : Nat) : Entry :=
  ⟨.tokenizer, .debug, "Tokenized " ++ Text.quoted text ++ " into " ++ toString count ++ " tokens"⟩

def refusedLimit (raw : String) : Entry :=
  ⟨.settings, .warning, "Invalid " ++ limitVariable ++ " value '" ++ raw ++ "'. Using default " ++
    toString Limit.standard ++ "."⟩

def parsing (count : Nat) (limit : Int) : Entry :=
  ⟨.parser, .debug,
    "Parsing " ++ toString count ++ " tokens (max depth " ++ toString limit ++ ")"⟩

def parsed (tree : Expr) : Entry := ⟨.parser, .debug, "Parsed expression: " ++ tree.text⟩

/-- A setting is reported only if it gives no limit. -/
def ofSetting (setting : Option String) : List Entry :=
  match Limit.ofEnvironment setting with
  | .ok _ => []
  | .error raw => [refusedLimit raw]

/-- The limit in force: an explicit one, or what the setting gives. -/
def limitFor (setting : Option String) (limit? : Option Int) : Int :=
  limit?.getD (Limit.load setting)

/-- Reads a text and keeps the journal. The setting is looked at only when there are tokens to
assemble and no explicit limit. -/
def read (setting : Option String) (limit? : Option Int) (text : String) :
    List Entry × Except Fault Expr :=
  match Token.ofText text with
  | .error fault => ([], .error fault)
  | .ok tokens =>
    let limit := limitFor setting limit?
    let before := tokenized text tokens.length ::
      (if limit?.isSome then [] else ofSetting setting) ++ [parsing tokens.length limit]
    match Expr.ofTokens limit tokens with
    | .error fault => (before, .error fault)
    | .ok tree => (before ++ [parsed tree], .ok tree)

end Formula.Journal
