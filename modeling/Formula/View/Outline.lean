import Formula.Expr.Fold

/-!
Outlines: trees of labels, shown one label per line behind guide lines. The outline of an
expression is grown by a list of branches that still have to be hung up, each with the path of
the node to hang it under.
-/

namespace Formula

inductive Outline where
  | node (label : String) (branches : List Outline)

namespace Outline

def label : Outline → String
  | .node label _ => label

def branches : Outline → List Outline
  | .node _ branches => branches

/-- The label of the root of an expression. -/
def labelOf : Expr → String
  | .number value => "Number " ++ value.text
  | .var name => "Variable " ++ name
  | .pi => "Pi"
  | .euler => "E"
  | .binary .add _ _ => "Add +"
  | .binary .sub _ _ => "Sub -"
  | .binary .mul _ _ => "Mul *"
  | .binary .div _ _ => "Div /"
  | .binary .pow _ _ => "Pow ^"
  | .unary .neg _ => "Neg"
  | .unary .exp _ => "Exp"
  | .unary (.apply .ln) _ => "Log"
  | .unary (.apply .sin) _ => "Sin"
  | .unary (.apply .cos) _ => "Cos"
  | .unary (.apply .tan) _ => "Tan"
  | .unary (.apply .sqrt) _ => "Sqrt"

/-- Hangs a branch under the node at the end of a path, as its last one. -/
def graft (branch : Outline) : List Nat → Outline → Outline
  | [], .node label branches => .node label (branches ++ [branch])
  | i :: path, .node label branches => .node label (branches.modify i (graft branch path))

/-- How many branches the node at the end of a path has. -/
def breadthAt : List Nat → Outline → Nat
  | [], outline => outline.branches.length
  | i :: path, outline => (outline.branches[i]?.map (breadthAt path)).getD 0

/-- Hangs up the waiting branches, the first one first; the children of a node wait before all
others. -/
def grow : List (List Nat × Expr) → Outline → Outline
  | [], outline => outline
  | (path, e) :: waiting, outline =>
    let place := path ++ [outline.breadthAt path]
    grow (e.children.map (place, ·) ++ waiting) (graft (.node (labelOf e) []) path outline)
termination_by waiting => Expr.sizeAll (waiting.map Prod.snd)
decreasing_by
  have := Expr.sizeAll_children e
  simp only [List.map_append, List.map_cons, List.map_map, Function.comp_def, List.map_id',
    Expr.sizeAll_append, Expr.sizeAll]
  omega

/-- An expression under a heading. -/
def ofExpr (heading : String) (e : Expr) : Outline := grow [([], e)] (.node heading [])

mutual

/-- The lines of an outline whose first line stands behind `guide` and whose others stand behind
`margin`. -/
def linesBehind (guide margin : String) : Outline → List String
  | .node label branches => (guide ++ label) :: branchLines margin branches

/-- The lines of the branches of a node, with a corner before the last one. -/
def branchLines (margin : String) : List Outline → List String
  | [] => []
  | [last] => linesBehind (margin ++ "└── ") (margin ++ "    ") last
  | branch :: rest =>
    linesBehind (margin ++ "├── ") (margin ++ "│   ") branch ++ branchLines margin rest

end

def lines (outline : Outline) : List String := linesBehind "" "" outline

end Outline

end Formula
