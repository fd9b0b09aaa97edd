import Mathlib.Data.List.Basic
import Formula.Proofs.Item.Calls

/-!
What the binding of calls makes of a whole list. The list is divided into calls, a keyword and the
tree behind it each, and items that stay; the first keyword without an argument is the fault. Main
statement: every keyword that has something behind it is bound, and nothing else is changed.
-/

namespace Formula.Item

open Outcome

theorem function?_eq_none_of_other {t : Token} {next : Item}
    (noCall : ∀ f argument, t.kind = .function f → next = .tree argument → False)
    (noToken : ∀ f u, t.kind = .function f → next = .token u → False) :
    (Item.token t).function? = none := by
  cases kind : t.kind with
  | function f =>
    cases next with
    | tree e => exact (noCall f e kind rfl).elim
    | token u => exact (noToken f u kind rfl).elim
  | _ => simp [function?, kind]

/-- The item at the place is a keyword that has something behind it, but no tree. -/
def Unbound (items : List Item) (place : Nat) (keyword : Token) : Prop :=
  items[place]? = some (.token keyword) ∧ (∃ f, keyword.kind = .function f) ∧
    place + 1 < items.length ∧ ∀ e, items[place + 1]? ≠ some (.tree e)

section Unbound

variable {item : Item} {items : List Item} {place : Nat} {keyword : Token}

theorem unbound_succ :
    Unbound (item :: items) (place + 1) keyword ↔ Unbound items place keyword := by
  simp [Unbound]

theorem unbound_zero : Unbound (item :: items) 0 keyword ↔
    item = .token keyword ∧ (∃ f, keyword.kind = .function f) ∧
      ∃ next later, items = .token next :: later := by
  cases items with
  | nil => simp [Unbound]
  | cons next later =>
    cases next with
    | tree e => simp [Unbound]
    | token t => simp [Unbound]

/-- No keyword before the place lacks its argument. -/
structure FirstUnbound (items : List Item) (place : Nat) (keyword : Token) : Prop where
  unbound : Unbound items place keyword
  first : ∀ earlier < place, ∀ other, ¬Unbound items earlier other

theorem FirstUnbound.cons (here : ∀ other, ¬Unbound (item :: items) 0 other)
    (later : FirstUnbound items place keyword) :
    FirstUnbound (item :: items) (place + 1) keyword where
  unbound := unbound_succ.mpr later.unbound
  first earlier less other := by
    cases earlier with
    | zero => exact here other
    | succ earlier =>
      rw [unbound_succ]
      exact later.first earlier (by omega) other

theorem FirstUnbound.unique {place' : Nat} {keyword' : Token}
    (one : FirstUnbound items place keyword) (other : FirstUnbound items place' keyword') :
    keyword = keyword' := by
  have low : place ≤ place' :=
    Nat.le_of_not_lt fun less => one.first place' less keyword' other.unbound
  have high : place' ≤ place :=
    Nat.le_of_not_lt fun less => other.first place less keyword one.unbound
  obtain rfl := Nat.le_antisymm low high
  have same := one.unbound.1.symm.trans other.unbound.1
  simpa using same

theorem not_unbound_zero (noKeyword : item.function? = none) :
    ¬Unbound (item :: items) 0 keyword := by
  intro unbound
  obtain ⟨rfl, ⟨f, isFunction⟩, _⟩ := unbound_zero.mp unbound
  simp [function?, isFunction] at noKeyword

end Unbound

/-- What the binding of calls takes at once: an item that stays, or a call. -/
inductive Portion where
  | kept (item : Item)
  | call (keyword : Token) (f : Elementary) (isFunction : keyword.kind = .function f)
    (argument : Expr)

namespace Portion

def items : Portion → List Item
  | .kept item => [item]
  | .call keyword _ _ argument => [.token keyword, .tree argument]

def bound : Portion → Item
  | .kept item => item
  | .call _ f _ argument => .tree (.unary (.apply f) argument)

/-- An item that stays is no keyword, unless it is the last one. -/
def Complete : List Portion → Prop
  | [] => True
  | .kept item :: later => (item.function? = none ∨ later = []) ∧ Complete later
  | .call .. :: later => Complete later

@[simp]
theorem items_kept (item : Item) : (kept item).items = [item] := rfl

@[simp]
theorem items_call (keyword : Token) {f : Elementary} (isFunction : keyword.kind = .function f)
    (argument : Expr) :
    (call keyword f isFunction argument).items = [.token keyword, .tree argument] := rfl

theorem items_ne_nil (portion : Portion) : portion.items ≠ [] := by
  cases portion <;> simp

variable {portions : List Portion}

theorem Complete.not_unbound (complete : Complete portions) (place : Nat) (keyword : Token) :
    ¬Unbound (portions.flatMap items) place keyword := by
  induction portions generalizing place with
  | nil => simp [Unbound]
  | cons portion later ih =>
    cases portion with
    | kept item =>
      obtain ⟨noKeyword | rfl, behind⟩ := complete
      · cases place with
        | zero => exact not_unbound_zero noKeyword
        | succ place => exact mt unbound_succ.mp (ih behind place)
      · simp [Unbound]
    | call t f isFunction argument =>
      match place with
      | 0 =>
        intro unbound
        obtain ⟨_, _, next, later', isToken⟩ := unbound_zero.mp unbound
        cases isToken
      | 1 => exact mt unbound_succ.mp (not_unbound_zero rfl)
      | place + 2 =>
        exact mt unbound_succ.mp (mt unbound_succ.mp (ih complete place))

/-- Only the last one of the resulting items can be a keyword. -/
theorem Complete.noKeyword (complete : Complete portions) {item : Item}
    (mem : item ∈ (portions.map bound).dropLast) : item.function? = none := by
  induction portions with
  | nil => cases mem
  | cons portion later ih =>
    cases later with
    | nil => cases mem
    | cons next later =>
      cases portion with
      | kept first =>
        obtain ⟨noKeyword | none, behind⟩ := complete
        · rcases List.mem_cons.mp mem with rfl | inside
          · exact noKeyword
          · exact ih behind inside
        · cases none
      | call t f isFunction argument =>
        rcases List.mem_cons.mp mem with rfl | inside
        · rfl
        · exact ih complete inside

theorem Complete.kept (complete : Complete portions) :
    Complete ((portions.map bound).map .kept) := by
  induction portions with
  | nil => trivial
  | cons portion later ih =>
    cases portion with
    | kept item =>
      obtain ⟨other, behind⟩ := complete
      exact ⟨other.imp_right fun none => by rw [none]; rfl, ih behind⟩
    | call t f isFunction argument => exact ⟨.inl rfl, ih complete⟩

/-- The last item names a function after the binding exactly if it did so before. -/
theorem function?_last (portions : List Portion) :
    (portions.map bound).getLast?.bind function? =
      (portions.flatMap items).getLast?.bind function? := by
  induction portions with
  | nil => rfl
  | cons portion later ih =>
    cases later with
    | nil => cases portion <;> rfl
    | cons next later =>
      have nonempty : (next :: later).flatMap items ≠ [] := by
        simp [List.flatMap_cons, next.items_ne_nil]
      rw [List.map_cons, List.map_cons, List.getLast?_cons_cons, List.flatMap_cons,
        List.getLast?_append_of_ne_nil _ nonempty]
      exact ih

end Portion

open Portion (Complete)

theorem bindCalls_eq_ok {items out : List Item} :
    bindCalls items = .ok out ↔ ∃ portions, Complete portions ∧
      items = portions.flatMap Portion.items ∧ out = portions.map Portion.bound := by
  constructor
  · intro done
    fun_induction bindCalls items generalizing out with
    | case1 =>
      cases done
      exact ⟨[], trivial, rfl, rfl⟩
    | case2 item =>
      cases done
      exact ⟨[.kept item], ⟨.inr rfl, trivial⟩, rfl, rfl⟩
    | case3 e next rest ih =>
      obtain ⟨later, behind, rfl⟩ := map_eq_ok.mp done
      obtain ⟨portions, complete, split, rfl⟩ := ih behind
      exact ⟨.kept (.tree e) :: portions, ⟨.inl rfl, complete⟩, congrArg (_ :: ·) split, rfl⟩
    | case4 t rest f argument isFunction ih =>
      obtain ⟨later, behind, rfl⟩ := map_eq_ok.mp done
      obtain ⟨portions, complete, split, rfl⟩ := ih behind
      exact ⟨.call t f isFunction argument :: portions, complete, congrArg (_ :: _ :: ·) split, rfl⟩
    | case5 => cases done
    | case6 t next rest noCall noToken ih =>
      obtain ⟨later, behind, rfl⟩ := map_eq_ok.mp done
      obtain ⟨portions, complete, split, rfl⟩ := ih behind
      have other := function?_eq_none_of_other noCall noToken
      exact ⟨.kept (.token t) :: portions, ⟨.inl other, complete⟩, congrArg (_ :: ·) split, rfl⟩
  · rintro ⟨portions, complete, rfl, rfl⟩
    induction portions with
    | nil => rfl
    | cons portion later ih =>
      cases portion with
      | kept item =>
        obtain ⟨other | rfl, behind⟩ := complete
        · rw [List.flatMap_cons, Portion.items_kept, List.singleton_append, bindCalls_cons other,
            ih behind]
          rfl
        · rfl
      | call t f isFunction argument =>
        rw [List.flatMap_cons, Portion.items_call, List.cons_append, List.singleton_append,
          bindCalls_call isFunction, ih complete]
        rfl

theorem firstUnbound_of_error {items : List Item} {fault : Fault}
    (failed : bindCalls items = .error fault) :
    ∃ place keyword, FirstUnbound items place keyword ∧ fault = .missingArgument keyword.text := by
  fun_induction bindCalls items with
  | case1 => cases failed
  | case2 item => cases failed
  | case3 e next rest ih =>
    obtain ⟨place, keyword, first, rfl⟩ := ih (map_eq_error.mp failed)
    exact ⟨place + 1, keyword, first.cons fun _ => not_unbound_zero rfl, rfl⟩
  | case4 t rest f argument isFunction ih =>
    obtain ⟨place, keyword, first, rfl⟩ := ih (map_eq_error.mp failed)
    have bound (other : Token) : ¬Unbound (.token t :: .tree argument :: rest) 0 other := by
      intro unbound
      obtain ⟨_, _, next, later, isToken⟩ := unbound_zero.mp unbound
      cases isToken
    exact ⟨place + 1 + 1, keyword, (first.cons fun _ => not_unbound_zero rfl).cons bound, rfl⟩
  | case5 t rest f next isFunction =>
    cases failed
    refine ⟨0, t, ⟨unbound_zero.mpr ⟨rfl, ⟨f, isFunction⟩, next, rest, rfl⟩, ?_⟩, rfl⟩
    intro earlier less
    cases less
  | case6 t next rest noCall noToken ih =>
    obtain ⟨place, keyword, first, rfl⟩ := ih (map_eq_error.mp failed)
    have other : (Item.token t).function? = none := function?_eq_none_of_other noCall noToken
    exact ⟨place + 1, keyword, first.cons fun _ => not_unbound_zero other, rfl⟩

/-- The fault is that of the first keyword without an argument. -/
theorem bindCalls_eq_error {items : List Item} {fault : Fault} :
    bindCalls items = .error fault ↔
      ∃ place keyword, FirstUnbound items place keyword ∧
        fault = .missingArgument keyword.text := by
  constructor
  · exact firstUnbound_of_error
  · rintro ⟨place, keyword, first, rfl⟩
    cases outcome : bindCalls items with
    | ok out =>
      obtain ⟨portions, complete, rfl, _⟩ := bindCalls_eq_ok.mp outcome
      exact absurd first.unbound (complete.not_unbound place keyword)
    | error fault =>
      obtain ⟨place', keyword', first', rfl⟩ := firstUnbound_of_error outcome
      rw [first'.unique first]

/-- A list without unbound keywords is bound, and any other one is not. -/
theorem exists_bindCalls_iff {items : List Item} :
    (∃ out, bindCalls items = .ok out) ↔ ∀ place keyword, ¬Unbound items place keyword := by
  constructor
  · rintro ⟨out, done⟩ place keyword
    obtain ⟨portions, complete, rfl, _⟩ := bindCalls_eq_ok.mp done
    exact complete.not_unbound place keyword
  · intro bound
    cases outcome : bindCalls items with
    | ok out => exact ⟨out, rfl⟩
    | error fault =>
      obtain ⟨place, keyword, first, _⟩ := firstUnbound_of_error outcome
      exact absurd first.unbound (bound place keyword)

theorem bindCalls_idem {items out : List Item} (done : bindCalls items = .ok out) :
    bindCalls out = .ok out := by
  obtain ⟨portions, complete, _, rfl⟩ := bindCalls_eq_ok.mp done
  refine bindCalls_eq_ok.mpr ⟨(portions.map Portion.bound).map .kept, complete.kept, ?_, ?_⟩
  · simp only [List.flatMap_map, Portion.items_kept]
    exact List.map_eq_flatMap
  · simp [Function.comp_def, Portion.bound]

/-- Binding succeeds exactly if every keyword that is not last has a tree directly behind it, and
otherwise the first keyword without one is the fault. The result has no keyword but possibly the
last item, it is the list again once its calls are written out, and it is bound to itself. -/
theorem bindCalls_division (items : List Item) :
    ((∃ out, bindCalls items = .ok out) ↔
      ∀ place keyword f, items[place]? = some (.token keyword) → keyword.kind = .function f →
        place + 1 < items.length → ∃ e, items[place + 1]? = some (.tree e)) ∧
    (∀ fault, bindCalls items = .error fault ↔ ∃ place keyword, Unbound items place keyword ∧
      (∀ earlier < place, ∀ other, ¬Unbound items earlier other) ∧
        fault = .missingArgument keyword.text) ∧
    ∀ out, bindCalls items = .ok out →
      (∀ item ∈ out.dropLast, item.function? = none) ∧
        out.getLast?.bind function? = items.getLast?.bind function? ∧
        (∃ portions, Complete portions ∧ items = portions.flatMap Portion.items ∧
          out = portions.map Portion.bound) ∧
        bindCalls out = .ok out := by
  refine ⟨?_, ?_, ?_⟩
  · rw [exists_bindCalls_iff]
    simp only [Unbound, not_and, not_forall, not_not, forall_exists_index]
    exact forall₂_congr fun place keyword => by tauto
  · intro fault
    rw [bindCalls_eq_error]
    constructor
    · rintro ⟨place, keyword, first, same⟩
      exact ⟨place, keyword, first.unbound, first.first, same⟩
    · rintro ⟨place, keyword, unbound, first, same⟩
      exact ⟨place, keyword, ⟨unbound, first⟩, same⟩
  · intro out done
    obtain ⟨portions, complete, split, rfl⟩ := bindCalls_eq_ok.mp done
    have last := Portion.function?_last portions
    rw [← split] at last
    exact ⟨fun item => complete.noKeyword, last, ⟨portions, complete, split, rfl⟩,
      bindCalls_idem done⟩

end Formula.Item
