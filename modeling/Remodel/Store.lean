import Remodel.Error
import Remodel.Record.Basic

/-!
# The record store

A store keeps every version of every record.  A batch of changes is applied as a
whole or not at all, at a time that is later than that of every batch before it.
Times are counted in nanoseconds from a fixed instant.

## Strategy

Every id has its revisions, oldest first; a revision without record marks a
deletion.  What is live at a time is the last revision up to that time.  A batch is
checked against the state before it, and then applied change by change.
-/

namespace Remodel

/-- A state of a record from a time on; no record marks a deletion. -/
structure Revision where
  record : Option Record
  time : Int
  deriving Repr, DecidableEq

/-- The revisions of every id, oldest first, and the time of the last batch. -/
structure Store where
  revisions : List (String × List Revision)
  lastTime : Option Int
  deriving Repr, DecidableEq, Inhabited

/-- Changes that are applied together. -/
structure Commit where
  inserts : List Record
  updates : List Record
  deletes : List String
  deriving Repr, DecidableEq, Inhabited

/-- Whether there is nothing to change. -/
def Commit.isEmpty (commit : Commit) : Bool :=
  commit.inserts.isEmpty && commit.updates.isEmpty && commit.deletes.isEmpty

namespace Store

/-- The store without records. -/
def empty : Store := ⟨[], none⟩

/-- The revisions of an id; none if the id was never used. -/
def revisionsOf (store : Store) (oid : String) : List Revision :=
  (store.revisions.lookup oid).getD []

/-- The live record of an id. -/
def current? (store : Store) (oid : String) : Option Record :=
  (store.revisionsOf oid).getLast?.bind Revision.record

/-- The version that the next record of an id gets; deletions do not count. -/
def versionAfterLast (store : Store) (oid : String) : Nat :=
  ((store.revisionsOf oid).filter fun revision => revision.record.isSome).length + 1

/-- By how much a batch is later than the last one if the clock is not: a microsecond. -/
def leastStep : Int := 1000

/-- The time of the next batch: that of the clock, unless it is not later than the last
one. -/
def nextTime (store : Store) (clock : Int) : Int :=
  match store.lastTime with
  | some last => if clock ≤ last then last + leastStep else clock
  | none => clock

/-- The store with one more revision of an id. -/
def push (store : Store) (oid : String) (revision : Revision) : Store :=
  { store with revisions := Table.insert oid (store.revisionsOf oid ++ [revision]) store.revisions }

/-- The store with a record under its next version. -/
def writeRecord (time : Int) (store : Store) (record : Record) : Store :=
  store.push record.oid ⟨some { record with version := store.versionAfterLast record.oid }, time⟩

/-- The store with an id deleted. -/
def deleteRecord (time : Int) (store : Store) (oid : String) : Store :=
  store.push oid ⟨none, time⟩

/-- The first reason to refuse a batch: a record to insert that is live, or one to update
or delete that is not. -/
def refusal? (store : Store) (commit : Commit) : Option StoreFault :=
  let isLive := fun (oid : String) => (store.current? oid).isSome
  let inserted := (commit.inserts.map Record.oid).find? isLive
  let changed := (commit.updates.map Record.oid ++ commit.deletes).find? fun oid => !isLive oid
  (inserted.map StoreFault.alreadyExists).or (changed.map StoreFault.notFound)

/-- The store after the changes of a batch, at a time. -/
def apply (store : Store) (commit : Commit) (time : Int) : Store :=
  let written := (commit.inserts ++ commit.updates).foldl (writeRecord time) store
  let deleted := commit.deletes.foldl (deleteRecord time) written
  { deleted with lastTime := some time }

/-- Applies a batch while the clock shows a time; gives the time of the batch. -/
def commit (store : Store) (changes : Commit) (clock : Int) : Except StoreFault (Store × Int) :=
  match store.refusal? changes with
  | some fault => .error fault
  | none =>
    let time := store.nextTime clock
    .ok (store.apply changes time, time)

/-- The live record of an id. -/
def fetch (store : Store) (oid : String) : Except StoreFault Record :=
  match store.current? oid with
  | some record => .ok record
  | none => .error (.notFound oid)

/-- All versions of a record, oldest first. -/
def history (store : Store) (oid : String) : Except StoreFault (List Record) :=
  match store.revisions.lookup oid with
  | some revisions => .ok (revisions.filterMap Revision.record)
  | none => .error (.notFound oid)

/-- The live records that hold every wanted scalar, by ascending id. -/
def query (store : Store) (criteria : List (String × Scalar)) : List Record :=
  let live := store.revisions.filterMap fun entry => entry.2.getLast?.bind Revision.record
  live.filter fun record => record.satisfies criteria

/-- The last revision up to a time. -/
def revisionAt? (revisions : List Revision) (time : Int) : Option Revision :=
  revisions.reverse.find? fun revision => revision.time ≤ time

/-- The records that were live at a time and hold every wanted scalar, by ascending id. -/
def queryAsOf (store : Store) (criteria : List (String × Scalar)) (time : Int) : List Record :=
  (store.revisions.filterMap fun entry => (revisionAt? entry.2 time).bind Revision.record).filter
    fun record => record.satisfies criteria

/-- The number of live records. -/
def size (store : Store) : Nat := (store.query []).length

end Store

end Remodel
