/-!
Computations that end with a result or a fault, taken apart at the place where one goes on with
the result of another.
-/

namespace Formula.Outcome

variable {ε α β : Type} {x : Except ε α} {next : α → Except ε β} {f : α → β}

theorem bind_eq_ok {b : β} : x >>= next = .ok b ↔ ∃ a, x = .ok a ∧ next a = .ok b := by
  cases x with
  | error fault => simp [bind, Except.bind]
  | ok a => simp [bind, Except.bind]

theorem bind_eq_error {fault : ε} :
    x >>= next = .error fault ↔ x = .error fault ∨ ∃ a, x = .ok a ∧ next a = .error fault := by
  cases x with
  | error fault => simp [bind, Except.bind]
  | ok a => simp [bind, Except.bind]

theorem map_eq_ok {b : β} : f <$> x = .ok b ↔ ∃ a, x = .ok a ∧ f a = b := by
  cases x with
  | error fault => simp [Functor.map, Except.map]
  | ok a => simp [Functor.map, Except.map]

theorem map_eq_error {fault : ε} : f <$> x = .error fault ↔ x = .error fault := by
  cases x with
  | error fault => simp [Functor.map, Except.map]
  | ok a => simp [Functor.map, Except.map]

/-- The fault that a computation ends with. -/
def fault? : Except ε α → Option ε
  | .ok _ => none
  | .error fault => some fault

theorem fault?_eq_some {fault : ε} : fault? x = some fault ↔ x = .error fault := by
  cases x <;> simp [fault?]

theorem fault?_eq_none : fault? x = none ↔ ∃ a, x = .ok a := by
  cases x <;> simp [fault?]

/-- Both computations end with related faults, or both with related results. -/
inductive Alike (fault : ε → ε → Prop) (result : α → β → Prop) :
    Except ε α → Except ε β → Prop where
  | error {f g : ε} (same : fault f g) : Alike fault result (.error f) (.error g)
  | ok {a : α} {b : β} (same : result a b) : Alike fault result (.ok a) (.ok b)

section Alike

variable {α' β' : Type} {fault : ε → ε → Prop} {result : α → α' → Prop} {after : β → β' → Prop}
  {x' : Except ε α'}

theorem Alike.bind {next' : α' → Except ε β'} (first : Alike fault result x x')
    (more : ∀ a a', result a a' → Alike fault after (next a) (next' a')) :
    Alike fault after (x >>= next) (x' >>= next') := by
  cases first with
  | error same => exact .error same
  | ok same => exact more _ _ same

theorem Alike.map {f' : α' → β'} (first : Alike fault result x x')
    (more : ∀ a a', result a a' → after (f a) (f' a')) :
    Alike fault after (f <$> x) (f' <$> x') := by
  cases first with
  | error same => exact .error same
  | ok same => exact .ok (more _ _ same)

theorem Alike.refl {result : α → α → Prop} (sameFault : ∀ f, fault f f)
    (sameResult : ∀ a, result a a) (x : Except ε α) : Alike fault result x x := by
  cases x with
  | error f => exact .error (sameFault f)
  | ok a => exact .ok (sameResult a)

theorem Alike.mono {result' : α → α' → Prop} (alike : Alike fault result x x')
    (weaker : ∀ a a', result a a' → result' a a') : Alike fault result' x x' := by
  cases alike with
  | error same => exact .error same
  | ok same => exact .ok (weaker _ _ same)

theorem Alike.cases (alike : Alike fault result x x') :
    (∃ a a', x = .ok a ∧ x' = .ok a' ∧ result a a') ∨
      ∃ f f', x = .error f ∧ x' = .error f' ∧ fault f f' := by
  cases alike with
  | error same => exact .inr ⟨_, _, rfl, rfl, same⟩
  | ok same => exact .inl ⟨_, _, rfl, rfl, same⟩

theorem Alike.exists_ok {a : α} (alike : Alike fault result x x') (ends : x = .ok a) :
    ∃ a', x' = .ok a' ∧ result a a' := by
  subst ends
  cases alike with
  | ok same => exact ⟨_, rfl, same⟩

/-- Results with the same images make the same computation. -/
theorem Alike.map_eq {g : α → β} {h : α' → β}
    (alike : Alike Eq (fun a a' => g a = h a') x x') : g <$> x = h <$> x' := by
  cases alike with
  | error same => exact congrArg Except.error same
  | ok same => exact congrArg Except.ok same

end Alike

section State

variable {σ : Type} {x : ExceptT ε (StateM σ) α} {next : α → ExceptT ε (StateM σ) β} {s s' : σ}

theorem run_bind_ok {a : α} (ends : x.run.run s = (.ok a, s')) :
    (x >>= next).run.run s = (next a).run.run s' := by
  rw [ExceptT.run_bind, StateT.run_bind, ends]
  rfl

theorem run_bind_error {fault : ε} (ends : x.run.run s = (.error fault, s')) :
    (x >>= next).run.run s = (.error fault, s') := by
  rw [ExceptT.run_bind, StateT.run_bind, ends]
  rfl

end State

end Formula.Outcome
