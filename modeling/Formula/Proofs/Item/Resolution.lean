import Formula.Proofs.Item.Outermost

/-!
The resolution of groups as a whole. The outermost groups are given to their reader one after the
other, and the trees that it answers with take the places of the groups.
-/

namespace Formula

namespace Item

def tree? : Item → Option Expr
  | .tree e => some e
  | .token _ => none

/-- The tokens again, with what was written in the places of the trees. -/
def restore : List Item → List (List Token) → List Token
  | .token t :: items, texts => t :: restore items texts
  | .tree _ :: items, text :: texts => text ++ restore items texts
  | _, _ => []

end Item

namespace Piece

/-- The items of the pieces, with trees in the places of the groups. -/
def fill : List Piece → List Expr → List Item
  | .token t :: pieces, trees => .token t :: fill pieces trees
  | .group _ :: pieces, e :: trees => .tree e :: fill pieces trees
  | _, _ => []

theorem filterMap_fill {pieces : List Piece} {trees : List Expr}
    (count : trees.length = (groups pieces).length) :
    (fill pieces trees).filterMap Item.tree? = trees := by
  induction pieces generalizing trees with
  | nil => simpa [fill, groups, eq_comm] using count
  | cons piece pieces ih =>
    cases piece with
    | token t => exact ih count
    | group contents =>
      cases trees with
      | nil => cases count
      | cons e trees => exact congrArg (e :: ·) (ih (Nat.succ.inj count))

/-- Only the groups are given to the reader. -/
theorem mapM_ofPiece {m : Type → Type} [Monad m] [LawfulMonad m]
    (assemble : List Token → m Expr) (pieces : List Piece) :
    pieces.mapM (Item.ofPiece assemble) = fill pieces <$> (groups pieces).mapM assemble := by
  induction pieces with
  | nil => simp [fill, groups]
  | cons piece pieces ih =>
    rw [List.mapM_cons, ih]
    cases piece with
    | token t => simp [Item.ofPiece, groups, fill]
    | group contents => simp [Item.ofPiece, groups, fill]

/-- The outermost groups are those that the scan finds. Where it finds no fault, its pieces and
the groups are all the tokens. -/
theorem exists_outermost (tokens : List Token) :
    ∃ own : List (Group tokens), Outermost own ∧
      own.map Group.contents = groups (ofTokens tokens).1 ∧
      ((ofTokens tokens).2 = none → ∀ trees, trees.length = own.length →
        Item.restore (fill (ofTokens tokens).1 trees) (own.map Group.written) = tokens) := by
  induction tokens using Token.groups_induction with
  | nil => exact ⟨[], .nil fun g => g.not_nil.elim, rfl, fun _ _ _ => rfl⟩
  | plain t rest plain ih =>
    obtain ⟨own, outermost, contents, whole⟩ := ih
    rw [ofTokens_plain plain]
    refine ⟨own.map (Group.behind rfl), outermost.plain plain rfl, ?_, ?_⟩
    · rw [List.map_map]
      exact contents
    · intro noFault trees count
      rw [List.map_map]
      rw [List.length_map] at count
      exact congrArg (t :: ·) (whole noFault trees count)
  | group opening contents closing rest isOpening isClosing matched _ ih =>
    obtain ⟨own, outermost, inside, whole⟩ := ih
    have same : opening :: (contents ++ closing :: rest) =
        opening :: (contents ++ [closing]) ++ rest := by simp
    rw [ofTokens_group isOpening isClosing matched]
    refine ⟨_, outermost.group isOpening isClosing matched same, ?_, ?_⟩
    · rw [List.map_cons, List.map_map]
      exact congrArg (contents :: ·) inside
    · intro noFault trees count
      cases trees with
      | nil => cases count
      | cons e trees =>
        rw [List.length_cons, List.length_cons, List.length_map] at count
        rw [List.map_cons, List.map_map]
        have behind := congrArg (opening :: (contents ++ [closing]) ++ ·)
          (whole noFault trees (Nat.succ.inj count))
        exact behind.trans same.symm
  | unclosed opening rest isOpening low =>
    rw [ofTokens_unclosed isOpening low]
    refine ⟨[], .nil (Group.not_balanced_of_unclosed isOpening low), rfl, ?_⟩
    intro noFault
    cases noFault
  | unopened closing rest isClosing =>
    rw [ofTokens_unopened isClosing]
    refine ⟨[], .nil (Group.not_balanced_of_unopened isClosing), rfl, ?_⟩
    intro noFault
    cases noFault

end Piece

namespace Item

open Outcome

/-- The calls for the groups are made first, and then the parentheses are judged. -/
theorem resolve_eq {m : Type → Type} [Monad m] [LawfulMonad m] [MonadExceptOf Fault m]
    (assemble : List Token → m Expr) (tokens : List Token) :
    resolve assemble tokens = (do
      let trees ← (Piece.groups (Piece.ofTokens tokens).1).mapM assemble
      match (Piece.ofTokens tokens).2 with
      | none => return Piece.fill (Piece.ofTokens tokens).1 trees
      | some fault => throw fault) := by
  rw [resolve]
  generalize Piece.ofTokens tokens = scanned
  obtain ⟨pieces, fault⟩ := scanned
  have filled := Piece.mapM_ofPiece assemble pieces
  cases fault with
  | none => simp only [filled, bind_map_left]
  | some fault => simp only [filled, bind_map_left]

/-- A reader of groups that may answer in any way, also depending on the groups it was given
earlier. The groups are recorded. -/
def recorded (answer : List (List Token) → List Token → Except Fault Expr)
    (contents : List Token) : ExceptT Fault (StateM (List (List Token))) Expr := do
  let earlier ← get
  set (earlier ++ [contents])
  MonadExcept.ofExcept (answer earlier contents)

section Recorded

variable {answer : List (List Token) → List Token → Except Fault Expr}
  {assemble : List Token → Except Fault Expr}

/-- The reader answers with the trees when it is given the groups after the earlier ones. -/
inductive Answered (answer : List (List Token) → List Token → Except Fault Expr) :
    List (List Token) → List (List Token) → List Expr → Prop
  | nil {earlier : List (List Token)} : Answered answer earlier [] []
  | cons {earlier later : List (List Token)} {contents : List Token} {e : Expr}
    {trees : List Expr} (first : answer earlier contents = .ok e)
    (rest : Answered answer (earlier ++ [contents]) later trees) :
    Answered answer earlier (contents :: later) (e :: trees)

variable {earlier calls later : List (List Token)} {contents : List Token} {trees : List Expr}

theorem Answered.length_eq (answered : Answered answer earlier calls trees) :
    trees.length = calls.length := by
  induction answered with
  | nil => rfl
  | cons _ _ ih => exact congrArg Nat.succ ih

theorem Answered.mapM_eq (answered : Answered answer earlier calls trees)
    (plain : ∀ earlier contents, answer earlier contents = assemble contents) :
    calls.mapM assemble = .ok trees := by
  induction answered with
  | nil => rfl
  | cons first _ ih =>
    rw [plain] at first
    rw [List.mapM_cons, first, ih]
    rfl

theorem recorded_run (answer : List (List Token) → List Token → Except Fault Expr)
    (earlier : List (List Token)) (contents : List Token) :
    (recorded answer contents).run.run earlier =
      (answer earlier contents, earlier ++ [contents]) := by
  have called : (recorded answer contents).run.run earlier =
      (MonadExcept.ofExcept (answer earlier contents) :
        ExceptT Fault (StateM (List (List Token))) Expr).run.run (earlier ++ [contents]) := rfl
  rw [called]
  cases answer earlier contents <;> rfl

/-- The reader is given the groups up to the first one that it answers with a fault. -/
theorem mapM_recorded (answer : List (List Token) → List Token → Except Fault Expr)
    (earlier calls : List (List Token)) :
    (∃ trees, Answered answer earlier calls trees ∧
      (calls.mapM (recorded answer)).run.run earlier = (.ok trees, earlier ++ calls)) ∨
    ∃ done next later trees fault, calls = done ++ next :: later ∧
      Answered answer earlier done trees ∧ answer (earlier ++ done) next = .error fault ∧
      (calls.mapM (recorded answer)).run.run earlier =
        (.error fault, earlier ++ (done ++ [next])) := by
  induction calls generalizing earlier with
  | nil =>
    left
    refine ⟨[], .nil, ?_⟩
    rw [List.append_nil]
    rfl
  | cons contents calls ih =>
    have called := recorded_run answer earlier contents
    rw [List.mapM_cons]
    cases first : answer earlier contents with
    | error fault =>
      rw [first] at called
      right
      refine ⟨[], contents, calls, [], fault, rfl, .nil, by rwa [List.append_nil], ?_⟩
      exact run_bind_error called
    | ok e =>
      rw [first] at called
      rw [run_bind_ok called]
      rcases ih (earlier ++ [contents]) with all | stopped
      · obtain ⟨trees, answered, run⟩ := all
        left
        refine ⟨e :: trees, .cons first answered, ?_⟩
        rw [run_bind_ok run, List.append_assoc]
        rfl
      · obtain ⟨done, next, later, trees, fault, rfl, answered, fails, run⟩ := stopped
        rw [List.append_assoc] at fails
        right
        refine ⟨contents :: done, next, later, e :: trees, fault, rfl, .cons first answered,
          fails, ?_⟩
        rw [run_bind_error run, List.append_assoc]
        rfl

/-- The record changes nothing for a reader whose answers do not depend on the earlier groups. -/
theorem resolve_recorded (plain : ∀ earlier contents, answer earlier contents = assemble contents)
    (tokens : List Token) :
    ((resolve (recorded answer) tokens).run.run []).1 = resolve assemble tokens := by
  rw [resolve_eq, resolve_eq]
  rcases mapM_recorded answer [] (Piece.groups (Piece.ofTokens tokens).1) with all | stopped
  · obtain ⟨trees, answered, run⟩ := all
    rw [run_bind_ok run, answered.mapM_eq plain]
    cases (Piece.ofTokens tokens).2 <;> rfl
  · obtain ⟨done, next, later, trees, fault, split, answered, fails, run⟩ := stopped
    rw [plain] at fails
    rw [run_bind_error run, split, List.mapM_append, List.mapM_cons, answered.mapM_eq plain, fails]
    rfl

/-- How the resolution of a list with these outermost groups can end, and for the contents of
which groups the reader is called: up to the first fault that it answers with, or for all. -/
inductive Course (answer : List (List Token) → List Token → Except Fault Expr)
    {tokens : List Token} (groups : List (Group tokens)) :
    Except Fault (List Item) → List (List Token) → Prop
  | stopped {done later : List (List Token)} {next : List Token} {trees : List Expr}
    {fault : Fault} (split : groups.map Group.contents = done ++ next :: later)
    (answered : Answered answer [] done trees) (fails : answer done next = .error fault) :
    Course answer groups (.error fault) (done ++ [next])
  | mismatched {trees : List Expr} {fault : Fault}
    (answered : Answered answer [] (groups.map Group.contents) trees)
    (mismatch : Token.Mismatch tokens fault) :
    Course answer groups (.error fault) (groups.map Group.contents)
  | resolved {trees : List Expr} {items : List Item}
    (answered : Answered answer [] (groups.map Group.contents) trees)
    (matched : Token.Balanced tokens) (made : items.filterMap tree? = trees)
    (restored : restore items (groups.map Group.written) = tokens) :
    Course answer groups (.ok items) (groups.map Group.contents)

section Course

variable {tokens : List Token} {groups : List (Group tokens)} {outcome : Except Fault (List Item)}

theorem Course.balanced (course : Course answer groups outcome calls) :
    ∀ contents ∈ calls, Token.Balanced contents := by
  have all (contents : List Token) (mem : contents ∈ groups.map Group.contents) :
      Token.Balanced contents := by
    obtain ⟨g, _, rfl⟩ := List.mem_map.mp mem
    exact g.matched
  cases course with
  | @stopped done later next _ _ split =>
    intro contents mem
    apply all
    rw [split, List.append_cons]
    exact List.mem_append_left later mem
  | mismatched => exact all
  | resolved => exact all

/-- With a reader that answers every group, the parentheses decide. -/
theorem Course.exists_ok_iff (course : Course answer groups outcome calls)
    (total : ∀ earlier contents, ∃ e, answer earlier contents = .ok e) :
    (∃ items, outcome = .ok items) ↔ Token.Balanced tokens := by
  cases course with
  | @stopped done _ next _ _ _ _ fails =>
    obtain ⟨e, ends⟩ := total done next
    rw [fails] at ends
    cases ends
  | mismatched _ mismatch => simp [mismatch.not_balanced]
  | resolved _ matched => simp [matched]

end Course

theorem exists_course (answer : List (List Token) → List Token → Except Fault Expr)
    (tokens : List Token) :
    ∃ groups : List (Group tokens), Outermost groups ∧
      ∃ outcome calls, (resolve (recorded answer) tokens).run.run [] = (outcome, calls) ∧
        Course answer groups outcome calls := by
  obtain ⟨groups, outermost, contents, whole⟩ := Piece.exists_outermost tokens
  refine ⟨groups, outermost, ?_⟩
  rw [resolve_eq, ← contents]
  rcases mapM_recorded answer [] (groups.map Group.contents) with all | stopped
  · obtain ⟨trees, answered, run⟩ := all
    rw [run_bind_ok run]
    rcases Piece.ofTokens_fault tokens with matched | mismatched
    · obtain ⟨noFault, balanced⟩ := matched
      have count : trees.length = (groups.map Group.contents).length := answered.length_eq
      have made := Piece.filterMap_fill (contents ▸ count)
      have restored := whole noFault trees (by simpa using count)
      rw [noFault]
      exact ⟨_, _, rfl, .resolved answered balanced made restored⟩
    · obtain ⟨fault, found, mismatch⟩ := mismatched
      rw [found]
      exact ⟨_, _, rfl, .mismatched answered mismatch⟩
  · obtain ⟨done, next, later, trees, fault, split, answered, fails, run⟩ := stopped
    rw [run_bind_error run]
    exact ⟨_, _, rfl, .stopped split answered fails⟩

end Recorded

/-- The resolution calls the reader for the contents of the outermost groups, in their order and
once each, until the reader answers with a fault, which is then the result. Behind the last call
the parentheses decide between a fault of theirs and items that the tokens can be restored from. -/
theorem resolve_course (answer : List (List Token) → List Token → Except Fault Expr)
    (tokens : List Token) :
    ∃ groups : List (Group tokens), Outermost groups ∧
      ∃ outcome calls, (resolve (recorded answer) tokens).run.run [] = (outcome, calls) ∧
        Course answer groups outcome calls ∧
        (∀ contents ∈ calls, Token.Balanced contents) ∧
        ((∀ earlier contents, ∃ e, answer earlier contents = .ok e) →
          ((∃ items, outcome = .ok items) ↔ Token.Balanced tokens)) ∧
        ∀ assemble : List Token → Except Fault Expr,
          (∀ earlier contents, answer earlier contents = assemble contents) →
            resolve assemble tokens = outcome := by
  obtain ⟨groups, outermost, outcome, calls, run, course⟩ := exists_course answer tokens
  refine ⟨groups, outermost, outcome, calls, run, course, course.balanced, ?_, ?_⟩
  · exact course.exists_ok_iff
  · intro assemble plain
    rw [← resolve_recorded plain, run]

end Item

end Formula
