import Formula.Expr.Basic

/-!
Combining a tree from the leaves up. `Expr.fold` follows the tree; `Expr.walk` does the same
work with a list of tasks and a stack of results, so that tall trees need no deep recursion, and
`Expr.leafWalk` collects the leaves with a stack of trees. The combining function may have
effects, which happen node by node, children before their parent.
-/

namespace Formula.Expr

variable {m : Type → Type} [Monad m] {α : Type}

/-- Each node is combined with the results of its children. -/
def fold (combine : Expr → List α → m α) : Expr → m α
  | .binary op left right => do
    let l ← left.fold combine
    let r ← right.fold combine
    combine (.binary op left right) [l, r]
  | .unary op operand => do
    let x ← operand.fold combine
    combine (.unary op operand) [x]
  | leaf => combine leaf []

/-- A node waits to be entered, or to be combined once the results of its children are there. -/
inductive Task where
  | enter (node : Expr)
  | leave (node : Expr)

/-- A node is entered at most once and left at most once. -/
def Task.weight : Task → Nat
  | .enter node => 2 * node.size
  | .leave _ => 1

theorem size_pos (node : Expr) : 0 < node.size := by
  cases node <;> simp only [size] <;> omega

/-- The nodes of several trees together. -/
def sizeAll : List Expr → Nat
  | [] => 0
  | node :: nodes => node.size + sizeAll nodes

theorem sizeAll_append (nodes others : List Expr) :
    sizeAll (nodes ++ others) = sizeAll nodes + sizeAll others := by
  induction nodes with
  | nil => simp only [sizeAll, List.nil_append, Nat.zero_add]
  | cons node nodes ih => simp only [sizeAll, List.cons_append, ih, Nat.add_assoc]

theorem sizeAll_children (node : Expr) : sizeAll node.children + 1 = node.size := by
  cases node <;> simp only [children, sizeAll, size] <;> omega

def Task.weightAll : List Task → Nat
  | [] => 0
  | task :: tasks => task.weight + weightAll tasks

theorem weightAll_enter (nodes : List Expr) (tasks : List Task) :
    Task.weightAll (nodes.map .enter ++ tasks) = 2 * sizeAll nodes + Task.weightAll tasks := by
  induction nodes with
  | nil => simp only [sizeAll, List.map_nil, List.nil_append, Nat.mul_zero, Nat.zero_add]
  | cons node nodes ih =>
    simp only [sizeAll, List.map_cons, List.cons_append, Task.weightAll, Task.weight, ih]
    omega

/-- Works off the tasks; the latest result is on top of the stack. -/
def walk (combine : Expr → List α → m α) : List Task → List α → m (List α)
  | [], results => return results
  | .leave node :: tasks, results => do
    let count := node.children.length
    let result ← combine node (results.take count).reverse
    walk combine tasks (result :: results.drop count)
  | .enter node :: tasks, results =>
    if node.children.isEmpty then do
      let result ← combine node []
      walk combine tasks (result :: results)
    else walk combine (node.children.map .enter ++ .leave node :: tasks) results
termination_by tasks => Task.weightAll tasks
decreasing_by
  · simp only [Task.weightAll, Task.weight]
    omega
  · have := size_pos node
    simp only [Task.weightAll, Task.weight]
    omega
  · have := sizeAll_children node
    simp only [weightAll_enter, Task.weightAll, Task.weight]
    omega

/-- The sizes of all subtrees, children before their parent. -/
def sizes (tree : Expr) : List Nat :=
  let record (_ : Expr) (below : List Nat) : StateM (List Nat) Nat := do
    let size := 1 + below.foldl (· + ·) 0
    modify (size :: ·)
    return size
  ((walk record [.enter tree] []).run []).2.reverse

/-- Collects the leaves of the trees on a stack, taking one tree at a time apart. -/
def leafWalk : List Expr → List Expr
  | [] => []
  | node :: stack =>
    if node.children.isEmpty then node :: leafWalk stack
    else leafWalk (node.children ++ stack)
termination_by stack => sizeAll stack
decreasing_by
  · have := size_pos node
    simp only [sizeAll]
    omega
  · have := sizeAll_children node
    simp only [sizeAll_append, sizeAll]
    omega

end Formula.Expr
