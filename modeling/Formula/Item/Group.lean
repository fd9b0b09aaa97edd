import Formula.Item.Basic

/-!
Groups. A list of tokens falls into pieces: the tokens outside all parentheses, and the contents
of each outermost group, taken as they stand. Resolving makes one tree out of each group and
leaves the other tokens alone.
-/

namespace Formula

inductive Piece where
  | token (t : Token)
  | group (contents : List Token)
  deriving DecidableEq

namespace Piece

/-- The pieces up to the end of the tokens or to the first unmatched parenthesis, which is then
the fault. `nesting` counts the open parentheses, `contents` holds the group's tokens so far,
latest first. -/
def scan (nesting : Nat) (contents : List Token) : List Token → List Piece × Option Fault
  | [] => ([], if nesting = 0 then none else some .unmatchedOpening)
  | t :: rest =>
    match t.kind, nesting with
    | .opening, 0 => scan 1 [] rest
    | .opening, n + 1 => scan (n + 2) (t :: contents) rest
    | .closing, 0 => ([], some (.unmatchedClosing t.pos))
    | .closing, 1 =>
      let (pieces, fault) := scan 0 [] rest
      (.group contents.reverse :: pieces, fault)
    | .closing, n + 2 => scan (n + 1) (t :: contents) rest
    | _, 0 =>
      let (pieces, fault) := scan 0 [] rest
      (.token t :: pieces, fault)
    | _, n + 1 => scan (n + 1) (t :: contents) rest

def ofTokens (tokens : List Token) : List Piece × Option Fault := scan 0 [] tokens

/-- The contents of the groups among the pieces. -/
def groups (pieces : List Piece) : List (List Token) :=
  pieces.filterMap fun
    | .group contents => some contents
    | .token _ => none

/-- The items of the pieces with a variable in the place of each group: the first one is named
`g1`. -/
def placeholders (count : Nat) : List Piece → List Item
  | [] => []
  | .token t :: rest => .token t :: placeholders count rest
  | .group _ :: rest =>
    .tree (.var ("g" ++ toString (count + 1))) :: placeholders (count + 1) rest

end Piece

namespace Item

variable {m : Type → Type} [Monad m]

def ofPiece (assemble : List Token → m Expr) : Piece → m Item
  | .token t => return .token t
  | .group contents => .tree <$> assemble contents

/-- Assembles the groups in the order in which they close; an unmatched parenthesis is reported
only after the groups before it. -/
def resolve [MonadExceptOf Fault m] (assemble : List Token → m Expr) (tokens : List Token) :
    m (List Item) := do
  let (pieces, fault) := Piece.ofTokens tokens
  let items ← pieces.mapM (ofPiece assemble)
  match fault with
  | none => return items
  | some fault => throw fault

end Item

end Formula
