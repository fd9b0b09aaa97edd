import Formula.Proofs.Expr.Reread
import Formula.Proofs.Expr.Walk

/-!
The walk as its combining function sees it. Main statement: the function is called once at every
node, the children of a node from left to right before the node itself, and with the results that
it has given for these children; the walk ends with the result for the whole tree and with no
other.
-/

namespace Formula.Expr

/-- All nodes, each behind those below it. -/
def postorder : Expr → List Expr
  | .binary op left right => left.postorder ++ right.postorder ++ [.binary op left right]
  | .unary op operand => operand.postorder ++ [.unary op operand]
  | leaf => [leaf]

theorem postorder_leaf {node : Expr} (isLeaf : node.children = []) : node.postorder = [node] := by
  cases node with
  | binary => cases isLeaf
  | unary => cases isLeaf
  | _ => rfl

theorem postorder_perm_nodes (e : Expr) : e.postorder.Perm e.nodes := by
  induction e with
  | binary op left right ihLeft ihRight =>
    exact (List.perm_append_singleton _ _).trans ((ihLeft.append ihRight).cons _)
  | unary op operand ih => exact (List.perm_append_singleton _ _).trans (ih.cons _)
  | _ => exact .refl _

/-- A call of the combining function: the node, the results it was given, and its answer. -/
structure Visit (α : Type) where
  node : Expr
  below : List α
  result : α

variable {m : Type → Type} [Monad m] {α : Type}

/-- Combines, and puts the call on record. -/
def noted (combine : Expr → List α → m α) (node : Expr) (below : List α) :
    StateT (List (Visit α)) m α := do
  let result ← combine node below
  modify (· ++ [⟨node, below, result⟩])
  return result

/-- The calls for a tree that has a result in the end: those for its children, one child after the
other, and then the call with the results of the children. -/
inductive Visited : Expr → α → List (Visit α) → Prop
  | leaf {node : Expr} (isLeaf : node.children = []) (result : α) :
    Visited node result [⟨node, [], result⟩]
  | binary (op : BinaryOp) {left right : Expr} {l r : α} {before behind : List (Visit α)}
      (visitedLeft : Visited left l before) (visitedRight : Visited right r behind) (result : α) :
    Visited (.binary op left right) result
      (before ++ behind ++ [⟨.binary op left right, [l, r], result⟩])
  | unary (op : UnaryOp) {operand : Expr} {x : α} {before : List (Visit α)}
      (visited : Visited operand x before) (result : α) :
    Visited (.unary op operand) result (before ++ [⟨.unary op operand, [x], result⟩])

theorem Visited.nodes_eq {node : Expr} {result : α} {visits : List (Visit α)}
    (visited : Visited node result visits) : visits.map Visit.node = node.postorder := by
  induction visited with
  | leaf isLeaf result => rw [postorder_leaf isLeaf, List.map_cons, List.map_nil]
  | binary op _ _ result ihLeft ihRight =>
    simp only [List.map_append, List.map_cons, List.map_nil, ihLeft, ihRight, postorder]
  | unary op _ result ih =>
    simp only [List.map_append, List.map_cons, List.map_nil, ih, postorder]

/-- The calls for a tree, up to its result. -/
structure Course (α : Type) (node : Expr) where
  result : α
  visits : List (Visit α)
  visited : Visited node result visits

namespace Course

def leaf {node : Expr} (isLeaf : node.children = []) (result : α) : Course α node :=
  ⟨result, _, .leaf isLeaf result⟩

def binary (op : BinaryOp) {left right : Expr} (l : Course α left) (r : Course α right)
    (result : α) : Course α (.binary op left right) :=
  ⟨result, _, .binary op l.visited r.visited result⟩

def unary (op : UnaryOp) {operand : Expr} (x : Course α operand) (result : α) :
    Course α (.unary op operand) :=
  ⟨result, _, .unary op x.visited result⟩

end Course

/-- The fold of a tree, with the calls that it takes. -/
def course (combine : Expr → List α → m α) : (node : Expr) → m (Course α node)
  | .binary op left right => do
    let l ← left.course combine
    let r ← right.course combine
    .binary op l r <$> combine (.binary op left right) [l.result, r.result]
  | .unary op operand => do
    let x ← operand.course combine
    .unary op x <$> combine (.unary op operand) [x.result]
  | .number value => .leaf rfl <$> combine (.number value) []
  | .var name => .leaf rfl <$> combine (.var name) []
  | .pi => .leaf rfl <$> combine .pi []
  | .euler => .leaf rfl <$> combine .euler []

theorem result_course [LawfulMonad m] (combine : Expr → List α → m α) (node : Expr) :
    Course.result <$> node.course combine = node.fold combine := by
  induction node with
  | binary op left right ihLeft ihRight =>
    rw [fold, course, ← ihLeft, ← ihRight]
    simp [Course.binary]
  | unary op operand ih =>
    rw [fold, course, ← ih]
    simp [Course.unary]
  | _ => simp [fold, course, Course.leaf]

theorem fold_noted [LawfulMonad m] (combine : Expr → List α → m α) (node : Expr)
    (earlier : List (Visit α)) :
    (node.fold (noted combine)).run earlier =
      (fun c => (c.result, earlier ++ c.visits)) <$> node.course combine := by
  induction node generalizing earlier with
  | binary op left right ihLeft ihRight =>
    simp [fold, course, noted, ihLeft, ihRight, Course.binary]
  | unary op operand ih => simp [fold, course, noted, ih, Course.unary]
  | _ => simp [fold, course, noted, Course.leaf]

/-- The walk through a tree ends within two rounds for each node, with the result of the fold and
nothing else on the stack. The calls on record are those of a course through the tree: one at each
node, in post-order, with the results of the calls at its children. -/
theorem walk_visits [LawfulMonad m] (combine : Expr → List α → m α) (e : Expr) :
    (∀ node : Expr, node.fold combine = (do
      let below ← node.children.mapM (fold combine)
      combine node below)) ∧
    walk combine [.enter e] [] = (fun result => [result]) <$> e.fold combine ∧
    (∀ more, walkFor combine (2 * e.size + more) [.enter e] [] =
      some <$> walk combine [.enter e] []) ∧
    (∀ earlier, (walk (noted combine) [.enter e] []).run earlier =
      (fun c => ([c.result], earlier ++ c.visits)) <$> e.course combine) ∧
    Course.result <$> e.course combine = e.fold combine ∧
    (∀ c : Course α e, Visited e c.result c.visits ∧ c.visits.map Visit.node = e.postorder) ∧
    e.postorder.Perm e.nodes := by
  refine ⟨fold_eq_mapM combine, walk_root combine e, ?_, ?_, result_course combine e,
    fun c => ⟨c.visited, c.visited.nodes_eq⟩, postorder_perm_nodes e⟩
  · intro more
    apply walkFor_eq
    simp only [Task.weightAll, Task.weight]
    omega
  · intro earlier
    rw [walk_root, StateT.run_map, fold_noted, Functor.map_map]

/-- Answers every call with its number. -/
def numbered (_ : Expr) (_ : List Nat) : StateM Nat Nat := do
  modify (· + 1)
  get

/-- The difference of the root of a and e. -/
def rootMinusE : Expr := .binary .sub (.unary (.apply .sqrt) (.var "a")) .euler

theorem walk_visits_rootMinusE :
    LawfulMonad (StateM Nat) ∧
    (walk numbered [.enter rootMinusE] []).run 0 = pure ([4], 4) ∧
    (walkFor numbered 8 [.enter rootMinusE] []).run 0 = pure (some [4], 4) ∧
    ((walk (noted numbered) [.enter rootMinusE] []).run []).run 0 = pure (([4],
      [⟨.var "a", [], 1⟩, ⟨.unary (.apply .sqrt) (.var "a"), [1], 2⟩, ⟨.euler, [], 3⟩,
        ⟨rootMinusE, [2, 3], 4⟩]), 4) := by
  obtain ⟨-, walked, ends, recorded, -⟩ := walk_visits numbered rootMinusE
  refine ⟨inferInstance, ?_, ?_, ?_⟩
  · rw [walked]
    rfl
  · rw [show 8 = 2 * rootMinusE.size + 0 from rfl, ends, walked]
    rfl
  · rw [recorded]
    rfl

end Formula.Expr
