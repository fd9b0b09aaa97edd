import Formula.Expr.Basic
import Formula.Text.Quoted

/-!
Tokens: what a formula is made of before it has a structure. Each knows the piece of text it was
read from and where that piece starts.
-/

namespace Formula

inductive Kind where
  | number
  | name
  | function (f : Elementary)
  | pi
  | euler
  | operator (op : BinaryOp)
  | opening
  | closing
  deriving DecidableEq

namespace Kind

def all : List Kind :=
  [.number, .name] ++ Elementary.all.map .function ++ [.pi, .euler] ++
    BinaryOp.all.map .operator ++ [.opening, .closing]

/-- The word for a kind in tables and messages. -/
def label : Kind → String
  | .number => "number"
  | .name => "variable"
  | .function f => f.name
  | .pi => "pi"
  | .euler => "e"
  | .operator .add => "plus"
  | .operator .sub => "minus"
  | .operator .mul => "star"
  | .operator .div => "slash"
  | .operator .pow => "caret"
  | .opening => "lparen"
  | .closing => "rparen"

def ofLabel? (label : String) : Option Kind := all.find? (·.label == label)

def isOperator : Kind → Bool
  | .operator _ => true
  | _ => false

/-- The kind of a run of letters: a keyword if the whole run is one, else a name. -/
def ofWord (word : String) : Kind :=
  match Elementary.all.find? (·.name == word) with
  | some f => .function f
  | none => if word = "pi" then .pi else if word = "e" then .euler else .name

/-- The kind of a character that is a token by itself. -/
def ofSymbol? : Char → Option Kind
  | '+' => some (.operator .add)
  | '-' => some (.operator .sub)
  | '*' => some (.operator .mul)
  | '/' => some (.operator .div)
  | '^' => some (.operator .pow)
  | '(' => some .opening
  | ')' => some .closing
  | _ => none

end Kind

/-- Tokens can also be made by hand: then a number may stand on any kind or be missing on a
number token, and the position may be any integer. -/
structure Token where
  kind : Kind
  text : String
  number : Option Number := none
  pos : Int := 0
  deriving DecidableEq

namespace Token

/-- Equality up to the position; numbers are compared by value. -/
def same (a b : Token) : Bool :=
  a.kind == b.kind && a.text == b.text &&
    match a.number, b.number with
    | some x, some y => x.same y
    | none, none => true
    | _, _ => false

def description (t : Token) : String :=
  "Token(" ++ t.kind.label ++ ", " ++ Text.quoted t.text ++ ", pos=" ++ toString t.pos ++ ")"

end Token

end Formula
