import Remodel.Proofs.Altering
import Remodel.Store

/-!
# Committing in place

A store is changed where it stands: a revision that has been added stays, whatever comes after it.
A batch is checked as a whole before the first revision is added, so a batch that is refused leaves
the store as it was, and one that is not refused is applied to its end (`outcome_commit`).

## Strategy

The checks of a batch go through its inserts, its updates and its deletes in this order, and each
of them looks at the store that nothing has changed yet (`outcome_checkAll`).  The time is taken
before the revisions are added in place, and set afterwards in `Store.apply`: revisions do not depend
on it (`foldl_withTime`).
-/

namespace Remodel.Store

open Altering

/-- A computation that changes a store in place. -/
abbrev InPlace (α : Type) := Altering Store StoreFault α

namespace InPlace

/-- Refuses to go on if the record of an id is live. -/
def requireFree (oid : String) : InPlace Unit := do
  if ((← get).current? oid).isSome then throw (.alreadyExists oid)

/-- Refuses to go on if the record of an id is not live. -/
def requireLive (oid : String) : InPlace Unit := do
  if !((← get).current? oid).isSome then throw (.notFound oid)

/-- Takes the time of a batch, which is that of the last batch from then on. -/
def takeTime (clock : Int) : InPlace Int :=
  modifyGet fun store => (store.nextTime clock, { store with lastTime := store.nextTime clock })

/-- Commits a batch: everything is checked, then one revision after another is added. -/
def commit (changes : Commit) (clock : Int) : InPlace Int := do
  (changes.inserts.map Record.oid).forM requireFree
  (changes.updates.map Record.oid).forM requireLive
  changes.deletes.forM requireLive
  let time ← takeTime clock
  (changes.inserts ++ changes.updates).forM fun record =>
    modify fun store => store.writeRecord time record
  changes.deletes.forM fun oid => modify fun store => store.deleteRecord time oid
  return time

end InPlace

open InPlace

variable (store : Store)

/-! ## Checking -/

theorem outcome_requireFree (oid : String) :
    outcome store (requireFree oid) =
      (checked (if (store.current? oid).isSome then some (.alreadyExists oid) else none),
        store) := by
  rw [requireFree, outcome_bind, outcome_get]
  dsimp only
  cases (store.current? oid).isSome <;> rfl

theorem outcome_requireLive (oid : String) :
    outcome store (requireLive oid) =
      (checked (if !(store.current? oid).isSome then some (.notFound oid) else none), store) := by
  rw [requireLive, outcome_bind, outcome_get]
  dsimp only
  cases (store.current? oid).isSome <;> rfl

/-! ## Changing -/

/-- The store with a time as that of the last batch. -/
def withTime (time : Int) : Store := { store with lastTime := some time }

/-- The time of the last batch does not matter to changes of the revisions. -/
theorem foldl_withTime {α : Type} {change : Store → α → Store}
    (hchange : ∀ store time item, change (withTime store time) item =
      withTime (change store item) time) (items : List α) (time : Int) :
    items.foldl change (store.withTime time) = (items.foldl change store).withTime time := by
  induction items generalizing store with
  | nil => rfl
  | cons item rest ih => rw [List.foldl_cons, hchange, ih, List.foldl_cons]

theorem writeRecord_withTime (time last : Int) (record : Record) :
    (store.withTime last).writeRecord time record =
      (store.writeRecord time record).withTime last := rfl

theorem deleteRecord_withTime (time last : Int) (oid : String) :
    (store.withTime last).deleteRecord time oid =
      (store.deleteRecord time oid).withTime last := rfl

/-- A batch that is applied after its time was taken. -/
theorem apply_eq (changes : Commit) (time : Int) :
    changes.deletes.foldl (deleteRecord time)
      ((changes.inserts ++ changes.updates).foldl (writeRecord time) (store.withTime time)) =
        store.apply changes time := by
  rw [foldl_withTime store fun store last record => writeRecord_withTime store time last record,
    foldl_withTime _ fun store last oid => deleteRecord_withTime store time last oid]
  rfl

/-! ## Committing -/

/-- What follows the checks. -/
theorem outcome_changes (changes : Commit) (clock : Int) :
    outcome store (do
      let time ← takeTime clock
      (changes.inserts ++ changes.updates).forM fun record =>
        (modify fun store => store.writeRecord time record : InPlace Unit)
      changes.deletes.forM fun oid =>
        (modify fun store => store.deleteRecord time oid : InPlace Unit)
      return time) =
      (.ok (store.nextTime clock), store.apply changes (store.nextTime clock)) := by
  have htime : outcome store (takeTime clock) =
      (.ok (store.nextTime clock), store.withTime (store.nextTime clock)) := rfl
  rw [outcome_bind, htime]
  dsimp only
  rw [outcome_bind, outcome_modifyAll]
  dsimp only
  rw [outcome_bind, outcome_modifyAll, apply_eq]
  rfl

/-- **A batch is committed as a whole or not at all.**  What a store does in place is what
`Store.commit` gives as a value, and a batch that is refused leaves the store as it was. -/
theorem outcome_commit (changes : Commit) (clock : Int) :
    outcome store (InPlace.commit changes clock) = settled store (store.commit changes clock) := by
  have hinserts := outcome_checkAll store (outcome_requireFree store)
    (changes.inserts.map Record.oid)
  have hupdates := outcome_checkAll store (outcome_requireLive store)
    (changes.updates.map Record.oid)
  have hdeletes := outcome_checkAll store (outcome_requireLive store) changes.deletes
  rw [InPlace.commit, outcome_bind, hinserts, Store.commit, refusal?, List.find?_append]
  cases (changes.inserts.map Record.oid).find? fun oid => (store.current? oid).isSome with
  | some oid => rfl
  | none =>
      dsimp only [Option.map_none, checked]
      rw [outcome_bind, hupdates]
      cases (changes.updates.map Record.oid).find? fun oid => !(store.current? oid).isSome with
      | some oid => rfl
      | none =>
          dsimp only [Option.map_none, checked]
          rw [outcome_bind, hdeletes]
          cases changes.deletes.find? fun oid => !(store.current? oid).isSome with
          | some oid => rfl
          | none =>
              dsimp only [Option.map_none, checked]
              exact outcome_changes store changes clock

end Remodel.Store
