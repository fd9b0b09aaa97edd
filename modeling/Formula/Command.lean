import Formula.Journal
import Formula.View.Grid
import Formula.View.Outline

/-!
The command line: `tokens` and `parse` with one formula each, and the options before and behind
them.
-/

namespace Formula

open Text

inductive Command where
  | version
  | help
  | tokens (text : String)
  | parse (text : String) (limit? : Option Int)
  deriving DecidableEq

/-- What a run answers: the exit code and the lines it prints. -/
structure Report where
  exit : Nat
  lines : List String
  deriving DecidableEq

namespace Command

/-- The words before the command. -/
inductive Switch where
  | version
  | verbose
  | help
  deriving DecidableEq

/-- An option starts with a minus sign and is more than that. -/
def isOption (word : String) : Bool :=
  match word.toList with
  | '-' :: _ :: _ => true
  | _ => false

def shortSwitch? : Char → Option Switch
  | 'V' => some .version
  | 'v' => some .verbose
  | _ => none

/-- The switches that one word stands for: a long name, or letters behind one minus sign. -/
def switchesOf? (word : String) : Option (List Switch) :=
  if word = "--version" then some [.version]
  else if word = "--verbose" then some [.verbose]
  else if word = "--help" then some [.help]
  else
    match word.toList with
    | '-' :: letters => letters.mapM shortSwitch?
    | _ => none

/-- The switches before the command, and the words from the command on. -/
def takeSwitches : List String → Option (List Switch × List String)
  | [] => some ([], [])
  | word :: rest =>
    if word = "--" then some ([], rest)
    else if isOption word then do
      let switches ← switchesOf? word
      let (more, after) ← takeSwitches rest
      return (switches ++ more, after)
    else some ([], word :: rest)

/-- The words behind a command, sorted. -/
structure Operands where
  texts : List String := []
  limit? : Option String := none
  help : Bool := false

namespace Operands

def addText (text : String) (operands : Operands) : Operands :=
  ⟨text :: operands.texts, operands.limit?, operands.help⟩

/-- A limit that stands further right has been seen already and wins. -/
def addLimit (text : String) (operands : Operands) : Operands :=
  ⟨operands.texts, operands.limit?.or (some text), operands.help⟩

def addHelp (operands : Operands) : Operands := ⟨operands.texts, operands.limit?, true⟩

/-- The limit that a word such as `--max-depth=3` carries. -/
def limitOf? (word : String) : Option String :=
  let start := "--max-depth=".toList
  if start.isPrefixOf word.toList then some (String.ofList (word.toList.drop start.length))
  else none

/-- Sorts the words behind a command; only some commands take a limit. -/
def ofWords? (takesLimit : Bool) : List String → Option Operands
  | [] => some {}
  | "--" :: rest => some ⟨rest, none, false⟩
  | [word] =>
    if !isOption word then some (addText word {})
    else if word = "--help" then some (addHelp {})
    else if takesLimit then (limitOf? word).map (addLimit · {})
    else none
  | word :: next :: rest =>
    if !isOption word then (ofWords? takesLimit (next :: rest)).map (addText word)
    else if word = "--help" then (ofWords? takesLimit (next :: rest)).map addHelp
    else if !takesLimit then none
    else if word = "--max-depth" then (ofWords? takesLimit rest).map (addLimit next)
    else do
      let limit ← limitOf? word
      return addLimit limit (← ofWords? takesLimit (next :: rest))

end Operands

/-- The value of an option that takes a whole number from 1 on, with blanks around it at will. -/
def limitValue? (text : String) : Option Int :=
  let digits := trim isBlank text.toList
  if Limit.digitLimit < digits.countP fun c => (digitValue? c).isSome then none
  else (Limit.integer? digitValue? digits).filter (1 ≤ ·)

/-- A command needs exactly one text. -/
def ofOperands? (command : String → Command) (operands : Operands) : Option Command :=
  if operands.help then some .help
  else
    match operands.texts with
    | [text] => some (command text)
    | _ => none

def parseOf? (operands : Operands) : Option Command :=
  match operands.limit? with
  | none => ofOperands? (.parse · none) operands
  | some text =>
    match limitValue? text with
    | some limit => ofOperands? (.parse · (some limit)) operands
    | none => if operands.help then some .help else none

/-- The command named by the first word. -/
def named? : List String → Option Command
  | "tokens" :: words => (Operands.ofWords? false words).bind (ofOperands? .tokens)
  | "parse" :: words => (Operands.ofWords? true words).bind parseOf?
  | _ => none

/-- What a command line asks for; of a version and a help switch the first one counts, and both
come before any command. -/
def ofWords? (words : List String) : Option Command := do
  let (switches, rest) ← takeSwitches words
  match switches.filter (· != .verbose) with
  | .version :: _ => return .version
  | _ :: _ => return .help
  | [] => named? rest

def versionLine : String := "pemdas 0.1.0"

def usage : List String := [
  "Usage: pemdas [--version | -V] [--verbose | -v] [--help] COMMAND",
  "  tokens EXPRESSION",
  "  parse EXPRESSION [--max-depth N]"]

def failure (fault : Fault) : Report := ⟨1, ["Error (" ++ fault.kind ++ "): " ++ fault.message]⟩

def report (result : Except Fault (List String)) : Report :=
  match result with
  | .ok lines => ⟨0, lines⟩
  | .error fault => failure fault

/-- The view of a tree: its text, its outline below, and its height. -/
def treeView (tree : Expr) : List String :=
  (Outline.ofExpr tree.text tree).lines ++ ["depth " ++ toString tree.depth]

/-- Runs a command under the setting for the limit. -/
def run (setting : Option String) : Command → Report
  | .version => ⟨0, [versionLine]⟩
  | .help => ⟨0, usage⟩
  | .tokens text => report ((Token.ofText text).map Grid.ofTokens)
  | .parse text limit? =>
    report ((Expr.ofText (Journal.limitFor setting limit?) text).map treeView)

/-- Runs a command line; one that asks for nothing sensible fails without a line. -/
def runWords (setting : Option String) (words : List String) : Report :=
  match ofWords? words with
  | some command => command.run setting
  | none => ⟨2, []⟩

end Command

end Formula
