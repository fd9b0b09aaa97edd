import Formula.Text.Width
import Formula.Token.Basic

/-!
Tables of tokens, drawn with frames. A column is as wide as its widest cell.
-/

namespace Formula.Grid

open Text

def repeated (count : Nat) (c : Char) : String := String.ofList (List.replicate count c)

def width (text : String) : Nat := cells text.toList

def padRight (size : Nat) (text : String) : String := text ++ repeated (size - width text) ' '

def padLeft (size : Nat) (text : String) : String := repeated (size - width text) ' ' ++ text

/-- The text in the middle of a line; an odd space goes to its right. -/
def centred (size : Nat) (text : String) : String :=
  let free := size - width text
  repeated (free / 2) ' ' ++ text ++ repeated (free - free / 2) ' '

/-- A line across the table between two ends, with a joint between two columns. -/
def rule (left : String) (line : Char) (joint right : String) (widths : List Nat) : String :=
  left ++ joint.intercalate (widths.map fun w => repeated (w + 2) line) ++ right

/-- A row of cells, each with a space at both sides; the first column is flush right. -/
def row (bar : String) (widths : List Nat) (texts : List String) : String :=
  let padded := (widths.zip texts).zipIdx.map fun ((w, text), i) =>
    if i = 0 then padLeft w text else padRight w text
  bar ++ bar.intercalate (padded.map fun text => " " ++ text ++ " ") ++ bar

def header : List String := ["Pos", "Kind", "Text"]

def rowOf (t : Token) : List String := [toString t.pos, t.kind.label, t.text]

/-- The width of each column of a table. -/
def columnWidths (rows : List (List String)) : List Nat :=
  (List.range header.length).map fun i =>
    (rows.map fun texts => width (texts.getD i "")).foldl max 0

/-- The table of a list of tokens under its title. -/
def ofTokens (tokens : List Token) : List String :=
  let rows := tokens.map rowOf
  let widths := columnWidths (header :: rows)
  let total := widths.foldl (· + · + 3) 1
  [centred total "Tokens", rule "┏" '━' "┳" "┓" widths, row "┃" widths header,
    rule "┡" '━' "╇" "┩" widths] ++ rows.map (row "│" widths) ++ [rule "└" '─' "┴" "┘" widths]

end Formula.Grid
