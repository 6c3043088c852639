import Remodel.Model.Write
import Remodel.Record.Basic
import Remodel.Trace
import Remodel.Types

/-!
# Rebuilding models

A model is rebuilt from its record and from the records that this one names.  What
does not fit its field is reported and left out; a record of another type, or one
without a single usable entry, gives no model.  Types that cannot be resolved and
records that cannot be fetched end the whole.

## Strategy

Records are fetched by any function from their ids.  They may name each other in a
circle, and following them then has no end.  `rebuildWithin` follows them to a given
depth and has an outcome of its own for going deeper.  In a list of records, no way
without a circle passes through the same type and record twice, so that `rebuild`
needs no more depth than there are such pairs.
-/

namespace Remodel

/-- Why a model is not rebuilt. -/
inductive RebuildFault
  | error (error : Error)
  /-- The records name each other beyond the allowed depth. -/
  | tooDeep
  deriving Repr, DecidableEq

/-- A rebuilding computation. -/
abbrev Rebuilding (α : Type) := Attempt RebuildFault α

/-- The result of an operation as a rebuilding computation. -/
def Rebuilding.lift {α : Type} (result : Except Error α) : Rebuilding α :=
  match result with
  | .ok value => pure value
  | .error e => throw (.error e)

/-- How records are fetched: what there is for an id, a record or a fault. -/
abbrev RecordFetch := String → Except StoreFault Record

/-- A list of records to fetch from, in which later ones win. -/
abbrev RecordSource := List Record

/-- The record of an id. -/
def RecordSource.fetch (source : RecordSource) (oid : String) : Except StoreFault Record :=
  match source.reverse.find? fun record => record.oid = oid with
  | some record => .ok record
  | none => .error (.notFound oid)

instance : Coe RecordSource RecordFetch := ⟨RecordSource.fetch⟩

namespace Rebuild

/-- How nested models are rebuilt: from the id of their type and their record. -/
abbrev Nested := String → Record → Rebuilding (Option Model)

/-- Reads the nested model whose record a scalar names. -/
def readModel (nested : Nested) (fetch : RecordFetch) (key typeId : String) (scalar : Scalar) :
    Rebuilding (Option Value) := do
  match scalar.text? with
  | none =>
    Traced.note (.notAnOid key)
    return none
  | some oid =>
    let child ← Rebuilding.lift ((fetch oid).mapError Error.store)
    let model ← nested typeId child
    return model.map Value.model

/-- Reads the file whose content a scalar holds. -/
def readFile (record : Record) (key : String) (scalar : Scalar) : Rebuilding (Option Value) := do
  match scalar.text? with
  | none =>
    Traced.note (.notFileText key)
    return none
  | some encoded =>
    let name := (record.text? (Record.fileNameKey key)).getD ""
    match FileContent.decode? name encoded with
    | some file => return some (.file file)
    | none =>
      Traced.note (.invalidFileText key)
      return none

/-- Reads the value under one key, before coercion. -/
def readAt (nested : Nested) (fetch : RecordFetch) (record : Record) (key : String)
    (kind : Kind) : Rebuilding (Option Value) :=
  match record.get? key with
  | none => return none
  | some scalar =>
    match kind with
    | .model typeId => readModel nested fetch key typeId scalar
    | .file => readFile record key scalar
    | _ => return some scalar.toValue

/-- The least index from `index` on that is not present; at most `bound` are tried. -/
def gapFrom (present : Nat → Bool) : Nat → Nat → Nat
  | 0, index => index
  | bound + 1, index => if present index then gapFrom present bound (index + 1) else index

/-- How many indexes from zero on have a key in the record.  Different indexes have
different keys, so that there are no more of them than entries. -/
def gaplessCount (record : Record) (keyOf : Nat → String) : Nat :=
  gapFrom (fun index => record.contains (keyOf index)) (record.entries.length + 1) 0

/-- Reads the entries of a map from an index on. -/
def readEntries (nested : Nested) (fetch : RecordFetch) (record : Record) (key : String)
    (kinds : Kind × Kind) : List Nat → Rebuilding (List (Value × Value))
  | [] => return []
  | index :: rest => do
    let k ← readAt nested fetch record (Record.entryKey key index) kinds.1
    let v ← readAt nested fetch record (Record.entryValueKey key index) kinds.2
    match k, v with
    | some k, some v => return (k, v) :: (← readEntries nested fetch record key kinds rest)
    | _, _ =>
      Traced.note (.incompleteEntry key index)
      readEntries nested fetch record key kinds rest

/-- Reads the elements of a list from an index on. -/
def readItems (nested : Nested) (fetch : RecordFetch) (record : Record) (key : String)
    (kind : Kind) : List Nat → Rebuilding (List Value)
  | [] => return []
  | index :: rest => do
    match ← readAt nested fetch record (Record.itemKey key index) kind with
    | some item => return item :: (← readItems nested fetch record key kind rest)
    | none => readItems nested fetch record key kind rest

/-- Whether a field is stored as a map. -/
def isStoredMap (record : Record) (field : Field) : Bool :=
  record.contains (Record.entryKey field.name 0) &&
    (field.kind.isMap || !record.contains field.name)

/-- Whether a field is stored as a list. -/
def isStoredList (record : Record) (field : Field) : Bool :=
  record.contains (Record.itemKey field.name 0) &&
    (field.kind.isList || !record.contains field.name)

/-- Reads the value of a field, before coercion: a map, a list or a single value,
whichever the keys of the record show. -/
def readStored (nested : Nested) (fetch : RecordFetch) (record : Record) (field : Field) :
    Rebuilding (Option Value) := do
  let key := field.name
  if isStoredMap record field then
    let count := gaplessCount record (Record.entryKey key)
    return some (.map (← readEntries nested fetch record key field.kind.entryOrSelf
      (List.range count)))
  else if isStoredList record field then
    let count := gaplessCount record (Record.itemKey key)
    return some (.list (← readItems nested fetch record key field.kind.elementKind
      (List.range count)))
  else
    readAt nested fetch record key field.kind

/-- Coerces a value to the kind of a field and writes it; gives the message of the fault
where that fails. -/
def assign (model : Model) (field : Field) (value : Value) : Except String Model :=
  match field.kind.coerce value with
  | .error fault => .error fault.message
  | .ok coerced =>
    match model.set field.name coerced with
    | .error fault => .error fault.message
    | .ok model => .ok model

/-- Reads fields into a model one after another, and counts those that it got. -/
def readFields (nested : Nested) (fetch : RecordFetch) (record : Record) :
    List Field → Model → Nat → Rebuilding (Model × Nat)
  | [], model, assigned => return (model, assigned)
  | field :: rest, model, assigned => do
    match ← readStored nested fetch record field with
    | none => readFields nested fetch record rest model assigned
    | some value =>
      match assign model field value with
      | .ok model => readFields nested fetch record rest model (assigned + 1)
      | .error message =>
        Traced.note (.skippedField record.oid field.name message)
        readFields nested fetch record rest model assigned

/-- Rebuilds a model of a type from a record, given how nested models are rebuilt. -/
def rebuildUsing (nested : Nested) (types : TypeTable) (fetch : RecordFetch)
    (typeId : String) (record : Record) : Rebuilding (Option Model) := do
  let descriptor ← Rebuilding.lift (types.resolve typeId)
  let fits ← match record.modelType? with
    | some tagged =>
      if tagged = typeId then pure true
      else do
        Traced.note (.otherModelType record.oid typeId tagged)
        pure false
    | none => do
      Traced.note (.untaggedRecord record.oid typeId)
      pure true
  if !fits then return none
  let model ← Rebuilding.lift (types.blank descriptor)
  let (model, assigned) ←
    readFields nested fetch record descriptor.writableFields model 0
  return if assigned = 0 then none else some model

end Rebuild

/-- Rebuilds a model of a type from a record, following records to a given depth. -/
def rebuildWithin (types : TypeTable) (fetch : RecordFetch) :
    Nat → String → Record → Rebuilding (Option Model)
  | 0, _, _ => throw .tooDeep
  | depth + 1, typeId, record =>
    Rebuild.rebuildUsing (rebuildWithin types fetch depth) types fetch typeId record

/-- The depth that is enough for records that do not name each other in a circle. -/
def rebuildDepth (types : TypeTable) (source : RecordSource) : Nat :=
  types.size * source.length + 2

/-- Rebuilds a model of a type from a record. -/
def rebuild (types : TypeTable) (source : RecordSource) (typeId : String) (record : Record) :
    Rebuilding (Option Model) :=
  rebuildWithin types source (rebuildDepth types source) typeId record

/-- Rebuilds the models of several records, leaving out those that give none. -/
def rebuildMany (types : TypeTable) (source : RecordSource) (typeId : String) :
    List Record → Rebuilding (List Model)
  | [] => return []
  | record :: rest => do
    match ← rebuild types source typeId record with
    | some model => return model :: (← rebuildMany types source typeId rest)
    | none => rebuildMany types source typeId rest

end Remodel
