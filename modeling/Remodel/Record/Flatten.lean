import Remodel.Record.Basic
import Remodel.Trace

/-!
# Flattening models

A model and everything it holds become records.  A nested model has its own record,
and its id stands in the record of the model that holds it.  Lists and maps become
numbered entries; a list or map inside another one has no form in a record and is
skipped.

## Strategy

An instance is written once: the labels of written instances are kept with their
record ids, and an id is noted before the nested models are visited.  A record is
complete only after the records of its nested models, so that those come first.
-/

namespace Remodel

/-- The connector for which models are flattened, and the ids that are drawn one after
another for models without one. -/
structure FlattenContext where
  identity : Identity
  drawnId : Nat → String

/-- What has been written: the records, the ids of labelled instances, and how many ids
have been drawn. -/
structure FlattenState where
  records : List Record
  seen : List (Nat × String)
  drawn : Nat

/-- A step of flattening. -/
abbrev Flattening (α : Type) := StateT FlattenState Traced α

namespace Flattening

/-- The record id of an instance that has been written. -/
def writtenOid? (label : Option Nat) : Flattening (Option String) := do
  return label.bind ((← get).seen.lookup ·)

/-- The record id of a model with the given id, or with a drawn one. -/
def makeOid (context : FlattenContext) (id : Option String) : Flattening String := do
  match id with
  | some part => return context.identity.oid part
  | none =>
    let state ← get
    set { state with drawn := state.drawn + 1 }
    return context.identity.oid (context.drawnId state.drawn)

/-- Notes the record id of a labelled instance. -/
def noteOid (label : Option Nat) (oid : String) : Flattening Unit :=
  match label with
  | some l => modify fun state => { state with seen := (l, oid) :: state.seen }
  | none => return ()

/-- Adds a finished record after the others. -/
def emit (record : Record) : Flattening Unit :=
  modify fun state => { state with records := state.records ++ [record] }

end Flattening

open Flattening

mutual

/-- Writes the records of a model unless they are written already; gives the id of its
record. -/
def flattenInstance (context : FlattenContext) : Instance Value → Flattening String
  | ⟨descriptor, values, label⟩ => do
    match ← writtenOid? label with
    | some oid => return oid
    | none =>
      let oid ← makeOid context (Instance.id? ⟨descriptor, values, label⟩)
      noteOid label oid
      let record ← descriptor.fields.foldlM
        (fun record field => flattenField context field.name values record) (Record.new oid)
      emit (record.stamp context.identity descriptor.typeId)
      return oid
termination_by structural model => model

/-- Writes the value of a field into a record. -/
def flattenField (context : FlattenContext) (field : String) :
    List (String × Value) → Record → Flattening Record
  | [], record => return record
  | (name, value) :: rest, record =>
    if name = field then flattenValue context field value record
    else flattenField context field rest record
termination_by structural values => values

/-- Writes a value under a key of a record. -/
def flattenValue (context : FlattenContext) (key : String) :
    Value → Record → Flattening Record
  | .model m, record => do
    let oid ← flattenInstance context m
    return record.put key (.string oid)
  | .file f, record =>
    return (record.put key (.string f.encoded)).put (Record.fileNameKey key) (.string f.name)
  | .list items, record => flattenItems context key 0 items record
  | .map entries, record => flattenEntries context key 0 entries record
  | .string s, record => return record.put key (.string s)
  | .integer i, record => return record.put key (.integer i)
  | .float x, record => return record.put key (.float x)
  | .boolean b, record => return record.put key (.boolean b)
  | .bytes b, record => return record.put key (.bytes b)
  | .enum name, record => return record.put key (.string name)
termination_by structural value => value

/-- Writes the elements of a list from an index on; a skipped element keeps its index. -/
def flattenItems (context : FlattenContext) (key : String) (index : Nat) :
    List Value → Record → Flattening Record
  | [], record => return record
  | item :: rest, record => do
    if item.isCollection then
      Traced.note (.nestedElement key index)
      flattenItems context key (index + 1) rest record
    else
      let record ← flattenValue context (Record.itemKey key index) item record
      flattenItems context key (index + 1) rest record
termination_by structural items => items

/-- Writes the entries of a map from an index on; a skipped entry takes no index. -/
def flattenEntries (context : FlattenContext) (key : String) (index : Nat) :
    List (Value × Value) → Record → Flattening Record
  | [], record => return record
  | (k, v) :: rest, record => do
    if k.isCollection || v.isCollection then
      Traced.note (.nestedEntry key index)
      flattenEntries context key index rest record
    else
      let record ← flattenValue context (Record.entryKey key index) k record
      let record ← flattenValue context (Record.entryValueKey key index) v record
      flattenEntries context key (index + 1) rest record
termination_by structural entries => entries

end

/-- The records of a model, and the id of its own. -/
structure FlatModel where
  rootOid : String
  records : List Record
  deriving Repr, DecidableEq

/-- The first record with the id of the model's own. -/
def FlatModel.root? (flat : FlatModel) : Option Record :=
  flat.records.find? fun record => record.oid = flat.rootOid

/-- Flattens a model and everything it holds. -/
def Model.flatten (model : Model) (context : FlattenContext) : Traced FlatModel := do
  let (oid, state) ← (flattenInstance context model).run ⟨[], [], 0⟩
  return ⟨oid, state.records⟩

end Remodel
