import Mathlib.Algebra.Order.Ring.Nat
import Formula.Proofs.Expr.Reread
import Formula.Proofs.Expr.Walk

/-!
The leaves of a tree, collected with a stack of trees. Main statement: they are the leaves that a
fold collects, in the same order, one more than the tree has binary nodes, and no more than its
height allows.
-/

namespace Formula.Expr

def isLeaf : Expr → Bool
  | .binary .. => false
  | .unary .. => false
  | _ => true

def isBinary : Expr → Bool
  | .binary .. => true
  | _ => false

/-- The leaves of a node, from those of its children. -/
def gather (node : Expr) (below : List (List Expr)) : List Expr :=
  if node.isLeaf then [node] else below.flatten

/-- The height of a node, from those of its children. -/
def height (_ : Expr) (below : List Nat) : Nat := 1 + below.max?.getD 0

/-- The collection of leaves, broken off if trees are left after so many rounds. -/
def leafWalkFor : Nat → List Expr → Option (List Expr)
  | _, [] => some []
  | 0, _ :: _ => none
  | rounds + 1, node :: stack =>
    if node.children.isEmpty then (node :: ·) <$> leafWalkFor rounds stack
    else leafWalkFor rounds (node.children ++ stack)

/-- Every node of the trees on the stack takes a round. -/
theorem leafWalkFor_eq (rounds : Nat) (stack : List Expr) :
    leafWalkFor rounds stack = if sizeAll stack ≤ rounds then some (leafWalk stack) else none := by
  induction rounds generalizing stack with
  | zero =>
    cases stack with
    | nil => simp [leafWalkFor, leafWalk, sizeAll]
    | cons node stack =>
      have positive := size_pos node
      rw [leafWalkFor, if_neg (by rw [sizeAll]; omega)]
  | succ rounds ih =>
    cases stack with
    | nil => simp [leafWalkFor, leafWalk, sizeAll]
    | cons node stack =>
      -- a leaf takes one round, any other node one more than its children
      have below := sizeAll_children node
      rw [leafWalkFor, leafWalk, sizeAll]
      by_cases leaf : node.children.isEmpty
      · have alone : node.size = 1 := by rw [← below, List.isEmpty_iff.mp leaf, sizeAll]
        rw [if_pos leaf, if_pos leaf, ih, alone, Nat.add_comm 1]
        simp only [Nat.add_le_add_iff_right]
        split <;> rfl
      · have same : sizeAll (node.children ++ stack) ≤ rounds ↔
            node.size + sizeAll stack ≤ rounds + 1 := by
          rw [sizeAll_append]
          omega
        rw [if_neg leaf, if_neg leaf, ih]
        simp only [same]

/-- The tree on top of the stack is taken apart before those below it. -/
theorem leafWalk_cons (e : Expr) (stack : List Expr) :
    leafWalk (e :: stack) = e.leaves ++ leafWalk stack := by
  induction e generalizing stack with
  | binary op left right ihLeft ihRight =>
    calc leafWalk (.binary op left right :: stack)
      _ = leafWalk (left :: right :: stack) := by
        rw [leafWalk]
        rfl
      _ = left.leaves ++ (right.leaves ++ leafWalk stack) := by rw [ihLeft, ihRight]
      _ = (binary op left right).leaves ++ leafWalk stack := by
        rw [leaves_binary, List.append_assoc]
  | unary op operand ih =>
    calc leafWalk (.unary op operand :: stack)
      _ = leafWalk (operand :: stack) := by
        rw [leafWalk]
        rfl
      _ = (unary op operand).leaves ++ leafWalk stack := by rw [ih, leaves_unary]
  | _ =>
    rw [leafWalk]
    rfl

theorem leafWalk_root (e : Expr) : leafWalk [e] = e.leaves := by
  rw [leafWalk_cons, leafWalk, List.append_nil]

theorem filter_isLeaf_nodes (e : Expr) : e.nodes.filter isLeaf = e.leaves := by
  induction e with
  | binary op left right ihLeft ihRight =>
    simp [isLeaf, ihLeft, ihRight]
  | unary op operand ih => simp [isLeaf, ih]
  | _ => rfl

theorem leaves_eq_gather (e : Expr) : e.leaves = gather e (e.children.map leaves) := by
  cases e with
  | binary op left right => exact (congrArg (left.leaves ++ ·) (List.append_nil _)).symm
  | unary op operand => exact (List.append_nil _).symm
  | _ => rfl

theorem depth_eq_height (e : Expr) : e.depth = height e (e.children.map depth) := by
  cases e <;> rfl

theorem length_leaves (e : Expr) : e.leaves.length = e.nodes.countP isBinary + 1 := by
  induction e with
  | binary op left right ihLeft ihRight =>
    simp only [leaves_binary, List.length_append, ihLeft, ihRight, nodes_binary,
      List.countP_cons, List.countP_append, isBinary, if_true]
    omega
  | unary op operand ih => simp [isBinary, ih]
  | _ => rfl

/-- Each level of a tree at most doubles the number of leaves. -/
theorem two_mul_length_leaves_le (e : Expr) : 2 * e.leaves.length ≤ 2 ^ e.depth := by
  induction e with
  | binary op left right ihLeft ihRight =>
    have boundLeft : 2 ^ left.depth ≤ 2 ^ max left.depth right.depth :=
      Nat.pow_le_pow_right Nat.zero_lt_two (le_max_left _ _)
    have boundRight : 2 ^ right.depth ≤ 2 ^ max left.depth right.depth :=
      Nat.pow_le_pow_right Nat.zero_lt_two (le_max_right _ _)
    rw [leaves_binary, List.length_append, depth_binary, pow_add, pow_one]
    omega
  | unary op operand ih =>
    rw [leaves_unary, depth_unary, pow_add, pow_one]
    omega
  | _ => exact le_refl 2

theorem length_leaves_le (e : Expr) : e.leaves.length ≤ 2 ^ (e.depth - 1) := by
  have bound := two_mul_length_leaves_le e
  cases levels : e.depth with
  | zero =>
    rw [levels] at bound
    omega
  | succ below =>
    rw [levels, pow_succ] at bound
    rw [Nat.add_sub_cancel]
    omega

/-- Taking the trees on a stack apart, in one round for each node, and combining from the leaves up
find the same leaves: every leaf of the tree once, from left to right. There is one more of them
than there are binary nodes, and no more than a tree of this height can have. -/
theorem leafWalk_gathers (e : Expr) :
    (∀ rounds, leafWalkFor rounds [e] = if e.size ≤ rounds then some (leafWalk [e]) else none) ∧
    walk (fun node below => (pure (gather node below) : Id (List Expr))) [.enter e] [] =
      pure [leafWalk [e]] ∧
    leafWalk [e] = e.leaves ∧
    e.leaves = e.nodes.filter isLeaf ∧
    (leafWalk [e]).length = e.nodes.countP isBinary + 1 ∧
    walk (fun node below => (pure (height node below) : Id Nat)) [.enter e] [] = pure [e.depth] ∧
    (leafWalk [e]).length ≤ 2 ^ (e.depth - 1) := by
  rw [leafWalk_root]
  refine ⟨?_, ?_, rfl, (filter_isLeaf_nodes e).symm, length_leaves e, ?_, length_leaves_le e⟩
  · intro rounds
    rw [leafWalkFor_eq, leafWalk_root]
    rfl
  · rw [walk_root, fold_pure leaves_eq_gather, map_pure]
  · rw [walk_root, fold_pure depth_eq_height, map_pure]

end Formula.Expr
