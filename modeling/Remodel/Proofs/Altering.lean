/-!
# Computations that alter a state

A computation alters a state where it stands: what it has changed before it meets a fault stays
changed.  So whether an operation is all or nothing can be asked of it, and is not settled by the
type of what it gives: its outcome is compared with that of an operation that gives a new state or
a fault (`settled`).

* `outcome_bind`: what follows goes on with the state that is left;
* `outcome_checkAll`: checks one after another have the fault of the first item that is refused;
* `outcome_modifyAll`: changes one after another.
-/

namespace Remodel

/-- A computation that alters a state, also when a fault follows. -/
abbrev Altering (State Fault α : Type) := ExceptT Fault (StateM State) α

namespace Altering

variable {State Fault α β : Type}

/-- What a computation gives, and the state that it leaves. -/
def outcome (state : State) (computation : Altering State Fault α) : Except Fault α × State :=
  computation.run.run state

/-- The outcome of a computation that gives another state or leaves the state as it is. -/
def settled (state : State) : Except Fault (State × α) → Except Fault α × State
  | .ok (after, value) => (.ok value, after)
  | .error fault => (.error fault, state)

variable (state : State)

@[simp] theorem outcome_pure (a : α) :
    outcome state (pure a : Altering State Fault α) = (.ok a, state) := rfl

/-- A computation goes on with the state that the one before it has left. -/
@[simp] theorem outcome_bind (first : Altering State Fault α)
    (next : α → Altering State Fault β) :
    outcome state (first >>= next) =
      match outcome state first with
      | (.ok a, after) => outcome after (next a)
      | (.error fault, after) => (.error fault, after) := by
  unfold outcome ExceptT.run StateT.run
  simp only [bind, ExceptT.bind, ExceptT.mk, ExceptT.bindCont, StateT.bind]
  cases (first state : Except Fault α × State) with
  | mk result after => cases result <;> rfl

@[simp] theorem outcome_get :
    outcome state (get : Altering State Fault State) = (.ok state, state) := rfl

@[simp] theorem outcome_except (result : Except Fault α) :
    outcome state (result : Altering State Fault α) = (result, state) := by
  cases result <;> rfl

/-- What a check gives that may refuse with a fault. -/
def checked : Option Fault → Except Fault Unit
  | some fault => .error fault
  | none => .ok ()

/-- Checks that change nothing: the first item that is refused gives its fault. -/
theorem outcome_checkAll {check : α → Altering State Fault Unit} {refused : α → Bool}
    {fault : α → Fault}
    (hcheck : ∀ item, outcome state (check item) =
      (checked (if refused item then some (fault item) else none), state)) (items : List α) :
    outcome state (items.forM check) =
      (checked ((items.find? refused).map fault), state) := by
  induction items with
  | nil => rfl
  | cons item rest ih =>
      rw [List.forM_eq_forM] at ih ⊢
      rw [List.forM_cons, outcome_bind, hcheck, List.find?_cons]
      cases refused item with
      | true => rfl
      | false => exact ih

/-- Changes one after another lead from each state to the next. -/
theorem outcome_modifyAll (change : State → α → State) (items : List α) :
    outcome state (items.forM fun item => (modify fun state => change state item :
      Altering State Fault Unit)) = (.ok (), items.foldl change state) := by
  induction items generalizing state with
  | nil => rfl
  | cons item rest ih =>
      rw [List.forM_eq_forM, List.forM_cons, outcome_bind]
      exact ih (change state item)

end Altering

end Remodel
