import Mathlib.Data.List.Basic
import Formula.Proofs.Expr.Reread
import Formula.View.Outline

/-!
Outlines of expressions. Hanging up the branches that wait, each with the path of its parent, gives
every node of the expression its place. Main statements: a tree on the stack becomes the tree of its
labels, and the lines of that show the nodes from the top down.
-/

namespace Formula

namespace Outline

/-- The tree of labels that mirrors an expression. -/
def image : Expr → Outline
  | .binary op left right => .node (labelOf (.binary op left right)) [image left, image right]
  | .unary op operand => .node (labelOf (.unary op operand)) [image operand]
  | leaf => .node (labelOf leaf) []

theorem label_image (e : Expr) : (image e).label = labelOf e := by
  cases e <;> rfl

theorem branches_image (e : Expr) : (image e).branches = e.children.map image := by
  cases e <;> rfl

/-- The place that a new branch takes is the end of the path to it from then on. -/
theorem graft_inside (inner : Outline) (label : String) (branches : List Outline) (path : List Nat)
    (outline : Outline) :
    graft inner (path ++ [outline.breadthAt path]) (graft (.node label branches) path outline) =
      graft (.node label (branches ++ [inner])) path outline := by
  induction path generalizing outline with
  | nil =>
    obtain ⟨label', others⟩ := outline
    simp [graft, breadthAt, Outline.branches, List.modify_eq_take_cons_drop]
  | cons i path ih =>
    obtain ⟨label', others⟩ := outline
    simp only [graft, List.cons_append, List.modify_modify_eq]
    congr 1
    apply List.ext_getElem?
    intro j
    simp only [List.getElem?_modify]
    by_cases here : i = j
    · subst here
      cases branch : others[i]? with
      | none => rfl
      | some b => simp [breadthAt, Outline.branches, branch, ih b]
    · simp [here]

/-- One tree on the stack becomes its image, whatever waits below it. -/
theorem grow_cons (e : Expr) (path : List Nat) (waiting : List (List Nat × Expr))
    (outline : Outline) :
    grow ((path, e) :: waiting) outline = grow waiting (graft (image e) path outline) := by
  induction e generalizing path waiting outline with
  | binary op left right ihLeft ihRight =>
    rw [grow]
    simp only [Expr.children, List.map_cons, List.map_nil, List.cons_append, List.nil_append]
    rw [ihLeft, ihRight, graft_inside, graft_inside]
    rfl
  | unary op operand ih =>
    rw [grow]
    simp only [Expr.children, List.map_cons, List.map_nil, List.cons_append, List.nil_append]
    rw [ih, graft_inside]
    rfl
  | _ =>
    rw [grow]
    rfl

/-- The mark in front of a branch. -/
def corner (last : Bool) : String := if last then "└── " else "├── "

/-- What stands below the mark, in front of everything further in. -/
def bar (last : Bool) : String := if last then "    " else "│   "

/-- The nodes from the top down, each with the guide lines in front of it. -/
def rows (margin : String) (last : Bool) : Expr → List (String × Expr)
  | .binary op left right =>
    (margin ++ corner last, .binary op left right) ::
      (rows (margin ++ bar last) false left ++ rows (margin ++ bar last) true right)
  | .unary op operand =>
    (margin ++ corner last, .unary op operand) :: rows (margin ++ bar last) true operand
  | leaf => [(margin ++ corner last, leaf)]

/-- A row as it is shown. -/
def rowLine (row : String × Expr) : String := row.1 ++ labelOf row.2

theorem nodes_rows (margin : String) (last : Bool) (e : Expr) :
    (rows margin last e).map Prod.snd = e.nodes := by
  induction e generalizing margin last with
  | binary op left right ihLeft ihRight => simp [rows, Expr.nodes, ihLeft, ihRight]
  | unary op operand ih => simp [rows, Expr.nodes, ih]
  | _ => rfl

theorem branchLines_single (margin : String) (branch : Outline) :
    branchLines margin [branch] =
      linesBehind (margin ++ corner true) (margin ++ bar true) branch := rfl

theorem branchLines_pair (margin : String) (first second : Outline) :
    branchLines margin [first, second] =
      linesBehind (margin ++ corner false) (margin ++ bar false) first ++
        linesBehind (margin ++ corner true) (margin ++ bar true) second := rfl

theorem linesBehind_image (margin : String) (last : Bool) (e : Expr) :
    linesBehind (margin ++ corner last) (margin ++ bar last) (image e) =
      (rows margin last e).map rowLine := by
  induction e generalizing margin last with
  | binary op left right ihLeft ihRight =>
    rw [image, linesBehind, branchLines_pair, ihLeft, ihRight]
    simp only [rows, rowLine, List.map_cons, List.map_append]
  | unary op operand ih =>
    rw [image, linesBehind, branchLines_single, ih]
    simp only [rows, rowLine, List.map_cons]
  | _ => rfl

theorem lines_ofExpr (heading : String) (e : Expr) :
    (ofExpr heading e).lines = heading :: (rows "" true e).map rowLine := by
  have hung : ofExpr heading e = .node heading [image e] := by
    rw [ofExpr, grow_cons, grow]
    rfl
  have below := linesBehind_image "" true e
  rw [hung, ← below]
  simp [lines, linesBehind, branchLines, corner, bar]

end Outline

end Formula
