import Formula.Expr.Fold

/-!
The walk with a list of tasks does the work of the fold: what is entered is left again with the
result of its fold on top of the stack, and with the effects of the fold and no others. Which tasks
are left after a round does not depend on the results, and they weigh less, so the rounds come to
an end.
-/

namespace Formula.Expr

variable {m : Type → Type} [Monad m] {α : Type}

/-- A node is combined with the results of its children, taken from left to right. -/
theorem fold_eq_mapM [LawfulMonad m] (combine : Expr → List α → m α) (node : Expr) :
    node.fold combine = (do
      let below ← node.children.mapM (fold combine)
      combine node below) := by
  cases node <;> simp [fold, children]

theorem walk_leave (combine : Expr → List α → m α) (node : Expr) (tasks : List Task)
    (results below : List α) (count : results.length = node.children.length) :
    walk combine (.leave node :: tasks) (results.reverse ++ below) = (do
      let result ← combine node results
      walk combine tasks (result :: below)) := by
  have taken : results.reverse.length = node.children.length := by
    rw [List.length_reverse, count]
  rw [walk, ← taken, List.take_left, List.drop_left, List.reverse_reverse]

theorem walk_enter [LawfulMonad m] (combine : Expr → List α → m α) (node : Expr) (tasks : List Task)
    (results : List α) :
    walk combine (.enter node :: tasks) results = (do
      let result ← node.fold combine
      walk combine tasks (result :: results)) := by
  induction node generalizing tasks results with
  | binary op left right ihLeft ihRight =>
    have leave (l r : α) := walk_leave combine (.binary op left right) tasks [l, r] results rfl
    have enter : walk combine (.enter (.binary op left right) :: tasks) results =
        walk combine (.enter left :: .enter right :: .leave (.binary op left right) :: tasks)
          results := by
      rw [walk]
      rfl
    rw [enter, ihLeft]
    simp only [ihRight, fold, bind_assoc]
    exact bind_congr fun l => bind_congr fun r => leave l r
  | unary op operand ih =>
    have leave (x : α) := walk_leave combine (.unary op operand) tasks [x] results rfl
    have enter : walk combine (.enter (.unary op operand) :: tasks) results =
        walk combine (.enter operand :: .leave (.unary op operand) :: tasks) results := by
      rw [walk]
      rfl
    rw [enter, ih]
    simp only [fold, bind_assoc]
    exact bind_congr leave
  | _ =>
    rw [walk]
    rfl

/-- A walk through one tree ends with one result on the stack, that of the fold. -/
theorem walk_root [LawfulMonad m] (combine : Expr → List α → m α) (node : Expr) :
    walk combine [.enter node] [] = (fun result => [result]) <$> node.fold combine := by
  rw [walk_enter, map_eq_pure_bind]
  simp only [walk]

/-- A function of trees that meets the equation of the fold is the fold. -/
theorem fold_pure [LawfulMonad m] {combine : Expr → List α → α} {value : Expr → α}
    (step : ∀ node, value node = combine node (node.children.map value)) (node : Expr) :
    node.fold (fun node below => (pure (combine node below) : m α)) = pure (value node) := by
  induction node with
  | binary op left right ihLeft ihRight =>
    rw [fold, ihLeft, ihRight, pure_bind, pure_bind, step (.binary op left right)]
    rfl
  | unary op operand ih =>
    rw [fold, ih, pure_bind, step (.unary op operand)]
    rfl
  | _ =>
    rw [step]
    rfl

section Rounds

/-- The tasks that are left when a task has been worked off. -/
def Task.next : Task → List Task → List Task
  | .leave _, tasks => tasks
  | .enter node, tasks =>
    if node.children.isEmpty then tasks else node.children.map .enter ++ .leave node :: tasks

/-- Works off one task; the latest result is on top of the stack. -/
def Task.perform (combine : Expr → List α → m α) : Task → List α → m (List α)
  | .leave node, results => do
    let count := node.children.length
    let result ← combine node (results.take count).reverse
    return result :: results.drop count
  | .enter node, results =>
    if node.children.isEmpty then do
      let result ← combine node []
      return result :: results
    else return results

/-- The walk, broken off if tasks are left after so many rounds. -/
def walkFor (combine : Expr → List α → m α) : Nat → List Task → List α → m (Option (List α))
  | _, [], results => return some results
  | 0, _ :: _, _ => return none
  | rounds + 1, task :: tasks, results => do
    let results ← task.perform combine results
    walkFor combine rounds (task.next tasks) results

theorem walk_cons [LawfulMonad m] (combine : Expr → List α → m α) (task : Task)
    (tasks : List Task) (results : List α) :
    walk combine (task :: tasks) results = (do
      let results ← task.perform combine results
      walk combine (task.next tasks) results) := by
  cases task with
  | leave node => simp only [walk, Task.perform, Task.next, bind_assoc, pure_bind]
  | enter node =>
    rw [walk, Task.perform, Task.next]
    split <;> simp only [bind_assoc, pure_bind]

theorem weightAll_next (task : Task) (tasks : List Task) :
    Task.weightAll (task.next tasks) < Task.weightAll (task :: tasks) := by
  cases task with
  | leave node =>
    simp only [Task.next, Task.weightAll, Task.weight]
    omega
  | enter node =>
    have positive := size_pos node
    have below := sizeAll_children node
    rw [Task.next]
    split
    · simp only [Task.weightAll, Task.weight]
      omega
    · simp only [weightAll_enter, Task.weightAll, Task.weight]
      omega

theorem walkFor_eq [LawfulMonad m] (combine : Expr → List α → m α) {rounds : Nat}
    {tasks : List Task} (enough : Task.weightAll tasks ≤ rounds) (results : List α) :
    walkFor combine rounds tasks results = some <$> walk combine tasks results := by
  induction rounds generalizing tasks results with
  | zero =>
    cases tasks with
    | nil => simp only [walkFor, walk, map_pure]
    | cons task tasks =>
      have less := weightAll_next task tasks
      omega
  | succ rounds ih =>
    cases tasks with
    | nil => simp only [walkFor, walk, map_pure]
    | cons task tasks =>
      have less := weightAll_next task tasks
      rw [walkFor, walk_cons, map_bind]
      exact bind_congr fun results => ih (by omega) results

end Rounds

end Formula.Expr
