import Mathlib.Data.List.Basic
import Remodel.Proofs.Table
import Remodel.Store

/-!
# The revisions of a store

A batch only adds: every id keeps its revisions and gets new ones after them, all of the time of
the batch (`Appends`).  What is known of every store that batches lead to follows from that.

* `appends_apply`: what a batch adds;
* `WellFormed.commit`: ids ascend, records stand under their own ids, and no revision is later than
  the last batch;
* `commit_eq_ok_iff`, `lt_nextTime`: when a batch is committed, and at what time.
-/

namespace Remodel

namespace Store

/-! ## What changes add -/

/-- Every id keeps its revisions and gets new ones, all of one time and with records of its own. -/
def Appends (time : Int) (before after : Store) : Prop :=
  ∀ oid, ∃ added, after.revisionsOf oid = before.revisionsOf oid ++ added ∧
    ∀ revision ∈ added, revision.time = time ∧
      ∀ record, revision.record = some record → record.oid = oid

variable {store : Store} {time : Int}

theorem revisionsOf_push (store : Store) (oid : String) (revision : Revision) (name : String) :
    (store.push oid revision).revisionsOf name =
      if name = oid then store.revisionsOf oid ++ [revision] else store.revisionsOf name := by
  unfold push revisionsOf
  rw [Table.lookup_insert]
  by_cases hname : name = oid <;> simp [hname]

theorem Appends.refl (time : Int) (store : Store) : Appends time store store := by
  intro oid
  exact ⟨[], (List.append_nil _).symm, fun _ h => absurd h List.not_mem_nil⟩

theorem Appends.trans {first second third : Store} (h : Appends time first second)
    (h' : Appends time second third) : Appends time first third := by
  intro oid
  obtain ⟨added, hadded, hnew⟩ := h oid
  obtain ⟨added', hadded', hnew'⟩ := h' oid
  refine ⟨added ++ added', by rw [hadded', hadded, List.append_assoc], ?_⟩
  intro revision hrevision
  rcases List.mem_append.mp hrevision with hmem | hmem
  · exact hnew revision hmem
  · exact hnew' revision hmem

theorem appends_push {oid : String} {revision : Revision} (htime : revision.time = time)
    (hown : ∀ record, revision.record = some record → record.oid = oid) :
    Appends time store (store.push oid revision) := by
  intro name
  rw [revisionsOf_push]
  by_cases hname : name = oid
  · rw [if_pos hname, hname]
    refine ⟨[revision], rfl, ?_⟩
    intro other hother
    rw [List.mem_singleton.mp hother]
    exact ⟨htime, hown⟩
  · rw [if_neg hname]
    exact Appends.refl time store name

theorem appends_writeRecord (time : Int) (store : Store) (record : Record) :
    Appends time store (store.writeRecord time record) :=
  appends_push rfl fun written hwritten => by rw [← Option.some.inj hwritten]

theorem appends_deleteRecord (time : Int) (store : Store) (oid : String) :
    Appends time store (store.deleteRecord time oid) :=
  appends_push rfl fun _ hdeleted => nomatch hdeleted

theorem appends_foldl {α : Type} {change : Store → α → Store}
    (hchange : ∀ store item, Appends time store (change store item)) (items : List α)
    (store : Store) : Appends time store (items.foldl change store) := by
  induction items generalizing store with
  | nil => exact Appends.refl time store
  | cons item rest ih => exact (hchange store item).trans (ih _)

theorem appends_apply (store : Store) (changes : Commit) (time : Int) :
    Appends time store (store.apply changes time) := by
  have hwritten : Appends time store
      ((changes.inserts ++ changes.updates).foldl (writeRecord time) store) :=
    appends_foldl (appends_writeRecord time) _ store
  have hdeleted := appends_foldl (appends_deleteRecord time) changes.deletes
    ((changes.inserts ++ changes.updates).foldl (writeRecord time) store)
  exact hwritten.trans hdeleted

/-! ## Well-formed stores -/

/-- Ids ascend, records stand under their own ids, and no revision is later than the last
batch. -/
structure WellFormed (store : Store) : Prop where
  ascending : Table.Ascending store.revisions
  own : ∀ {oid revision record}, revision ∈ store.revisionsOf oid →
    revision.record = some record → record.oid = oid
  notLater : ∀ {oid revision}, revision ∈ store.revisionsOf oid →
    ∃ last, store.lastTime = some last ∧ revision.time ≤ last

theorem wellFormed_empty : empty.WellFormed where
  ascending := List.Pairwise.nil
  own h := absurd h List.not_mem_nil
  notLater h := absurd h List.not_mem_nil

theorem ascending_foldl {α : Type} {change : Store → α → Store}
    (hchange : ∀ store item, Table.Ascending store.revisions →
      Table.Ascending (change store item).revisions) (items : List α) {store : Store}
    (h : Table.Ascending store.revisions) :
    Table.Ascending (items.foldl change store).revisions := by
  induction items generalizing store with
  | nil => exact h
  | cons item rest ih => exact ih (hchange store item h)

/-- A batch that is not earlier than the last one keeps a store well formed. -/
theorem WellFormed.apply (h : store.WellFormed) (changes : Commit)
    (htime : ∀ last, store.lastTime = some last → last ≤ time) :
    (store.apply changes time).WellFormed where
  ascending := ascending_foldl (fun _ _ h => h.insert _ _) _
    (ascending_foldl (fun _ _ h => h.insert _ _) _ h.ascending)
  own {oid revision record} hrevision hrecord := by
    obtain ⟨added, hadded, hnew⟩ := appends_apply store changes time oid
    rw [hadded] at hrevision
    rcases List.mem_append.mp hrevision with hold | hmem
    · exact h.own hold hrecord
    · exact (hnew revision hmem).2 record hrecord
  notLater {oid revision} hrevision := by
    refine ⟨time, rfl, ?_⟩
    obtain ⟨added, hadded, hnew⟩ := appends_apply store changes time oid
    rw [hadded] at hrevision
    rcases List.mem_append.mp hrevision with hold | hmem
    · obtain ⟨last, hlast, hle⟩ := h.notLater hold
      exact Int.le_trans hle (htime last hlast)
    · exact Int.le_of_eq (hnew revision hmem).1

/-! ## Committing -/

/-- A batch is committed at its time if nothing speaks against it. -/
theorem commit_eq_ok_iff {changes : Commit} {clock : Int} {after : Store} :
    store.commit changes clock = .ok (after, time) ↔
      store.refusal? changes = none ∧ time = store.nextTime clock ∧
        after = store.apply changes time := by
  unfold commit
  cases hrefusal : store.refusal? changes with
  | some fault => simp
  | none =>
      simp only [Except.ok.injEq, Prod.mk.injEq, true_and]
      constructor
      · rintro ⟨rfl, rfl⟩
        exact ⟨rfl, rfl⟩
      · rintro ⟨rfl, rfl⟩
        exact ⟨rfl, rfl⟩

/-- A batch is later than the one before it, whatever the clock shows. -/
theorem lt_nextTime {last : Int} (hlast : store.lastTime = some last) (clock : Int) :
    last < store.nextTime clock := by
  unfold nextTime
  rw [hlast]
  dsimp only
  split
  · rw [leastStep]
    omega
  · omega

theorem WellFormed.commit (h : store.WellFormed) {changes : Commit} {clock : Int} {after : Store}
    (hcommit : store.commit changes clock = .ok (after, time)) : after.WellFormed := by
  obtain ⟨-, rfl, rfl⟩ := commit_eq_ok_iff.mp hcommit
  exact h.apply changes fun last hlast => Int.le_of_lt (lt_nextTime hlast clock)

end Store

end Remodel
