import Remodel.Record.Flatten

/-!
# Flattening in memory

Flattening as it goes on in memory, where an instance is known by its address.

Reading an instance gives its values and with them the models in its fields.  A labelled
model that was read before is found where it lies, and one without label is built anew by
every reading.  What was read is held until the walk has come to it.  After that it could be
dropped, and its address be given to another model; so the walk pins every nested model that
it comes to, unless it has an id for the address already.

## Strategy

All that is known of memory is that a new model comes to lie at an address that is not in
use (`Memory`), and in use are the addresses of the root, of what is pinned and of what is
held (`WalkState.inUse`).  The walk tells instances by addresses only; labels say no more
than which readings give the same model.
-/

namespace Remodel

/-- Where a model lies. -/
abbrev Address := Nat

/-- Where the root lies, and where a model comes to lie that is built when so many others were
built before and these addresses are in use. -/
structure Memory where
  root : Address
  place : Nat → List Address → Address
  place_not_mem : ∀ built inUse, place built inUse ∉ inUse

/-- What the walk has done, and what lies where.

* The records so far, and how many ids have been drawn.
* The ids by address, and the addresses of pinned models.
* The addresses of the models that were read and to which the walk has not come yet, the
  next one first.
* Where labelled models lie that were read, and how many models have been built. -/
structure WalkState where
  records : List Record
  drawn : Nat
  oids : List (Address × String)
  pinned : List Address
  held : List Address
  homes : List (Nat × Address)
  built : Nat

namespace WalkState

/-- Before the walk.  If the root is labelled, then a model of that label lies where it does. -/
def start (memory : Memory) (label : Option Nat) : WalkState :=
  ⟨[], 0, [], [], [], label.toList.map (·, memory.root), 0⟩

/-- The addresses at which no other model can come to lie. -/
def inUse (memory : Memory) (state : WalkState) : List Address :=
  memory.root :: (state.pinned ++ state.held)

/-- Reads a model and holds it. -/
def read (memory : Memory) (label : Option Nat) (state : WalkState) : WalkState :=
  match label.bind (state.homes.lookup ·) with
  | some address => { state with held := address :: state.held }
  | none =>
    let address := memory.place state.built (state.inUse memory)
    { state with
      held := address :: state.held
      homes := (label.toList.map (·, address)) ++ state.homes
      built := state.built + 1 }

/-- Reads the models of one instance.  All of them are held, the first one on top. -/
def readAll (memory : Memory) (labels : List (Option Nat)) (state : WalkState) : WalkState :=
  labels.foldr (read memory) state

/-- Keeps a model to the end, unless there is an id for its address. -/
def pin (address : Address) (state : WalkState) : WalkState :=
  if (state.oids.lookup address).isSome then state
  else { state with pinned := address :: state.pinned }

/-- Notes the record id of the instance at an address. -/
def note (address : Address) (oid : String) (state : WalkState) : WalkState :=
  { state with oids := (address, oid) :: state.oids }

/-- Adds a finished record after the others. -/
def emit (record : Record) (state : WalkState) : WalkState :=
  { state with records := state.records ++ [record] }

end WalkState

/-! ## What reading an instance gives -/

/-- The label of a model, if the value is one. -/
def Value.ownLabel : Value → List (Option Nat)
  | .model m => [m.label]
  | _ => []

/-- The labels of the models of a value to which the walk comes, in its order. -/
def Value.heldLabels : Value → List (Option Nat)
  | .list items => items.flatMap ownLabel
  | .map entries => entries.flatMap fun entry =>
    if entry.1.isCollection || entry.2.isCollection then []
    else entry.1.ownLabel ++ entry.2.ownLabel
  | value => value.ownLabel

/-- The labels of the models in a field. -/
def fieldLabels (values : List (String × Value)) (field : String) : List (Option Nat) :=
  ((values.lookup field).map Value.heldLabels).getD []

/-- The labels of the models that reading an instance gives, field by field. -/
def Model.heldLabels (model : Model) : List (Option Nat) :=
  model.descriptor.fields.flatMap fun field => fieldLabels model.values field.name

/-! ## The walk -/

/-- A step of the walk. -/
abbrev Walking (α : Type) := StateT WalkState Traced α

namespace Walking

/-- The record id of the instance at an address, if it has one. -/
def oidAt? (address : Address) : Walking (Option String) := do
  return (← get).oids.lookup address

/-- The record id of a model with the given id, or with a drawn one. -/
def makeOid (context : FlattenContext) (id : Option String) : Walking String := do
  match id with
  | some part => return context.identity.oid part
  | none =>
    let state ← get
    set { state with drawn := state.drawn + 1 }
    return context.identity.oid (context.drawnId state.drawn)

/-- Goes to the next of the models that were read: its address is no longer held.  Whenever
the walk comes to a model it was read before, so there is one. -/
def goOn (memory : Memory) : Walking Address := do
  let state ← get
  set { state with held := state.held.tail }
  return state.held.headD memory.root

end Walking

open Walking

mutual

/-- Writes the records of the instance at an address unless they are written already; gives
the id of its record. -/
def visitInstance (memory : Memory) (context : FlattenContext) (address : Address) :
    Instance Value → Walking String
  | ⟨descriptor, values, label⟩ => do
    match ← oidAt? address with
    | some oid => return oid
    | none =>
      let oid ← makeOid context (Instance.id? ⟨descriptor, values, label⟩)
      modify (WalkState.note address oid)
      modify (WalkState.readAll memory (Model.heldLabels ⟨descriptor, values, label⟩))
      let record ← descriptor.fields.foldlM
        (fun record field => visitField memory context field.name values record) (Record.new oid)
      modify (WalkState.emit (record.stamp context.identity descriptor.typeId))
      return oid
termination_by structural model => model

/-- Writes the value of a field into a record. -/
def visitField (memory : Memory) (context : FlattenContext) (field : String) :
    List (String × Value) → Record → Walking Record
  | [], record => return record
  | (name, value) :: rest, record =>
    if name = field then visitValue memory context field value record
    else visitField memory context field rest record
termination_by structural values => values

/-- Writes a value under a key of a record. -/
def visitValue (memory : Memory) (context : FlattenContext) (key : String) :
    Value → Record → Walking Record
  | .model m, record => do
    let address ← goOn memory
    modify (WalkState.pin address)
    let oid ← visitInstance memory context address m
    return record.put key (.string oid)
  | .file f, record =>
    return (record.put key (.string f.encoded)).put (Record.fileNameKey key) (.string f.name)
  | .list items, record => visitItems memory context key 0 items record
  | .map entries, record => visitEntries memory context key 0 entries record
  | .string s, record => return record.put key (.string s)
  | .integer i, record => return record.put key (.integer i)
  | .float x, record => return record.put key (.float x)
  | .boolean b, record => return record.put key (.boolean b)
  | .bytes b, record => return record.put key (.bytes b)
  | .enum name, record => return record.put key (.string name)
termination_by structural value => value

/-- Writes the elements of a list from an index on; a skipped element keeps its index. -/
def visitItems (memory : Memory) (context : FlattenContext) (key : String) (index : Nat) :
    List Value → Record → Walking Record
  | [], record => return record
  | item :: rest, record => do
    if item.isCollection then
      Traced.note (.nestedElement key index)
      visitItems memory context key (index + 1) rest record
    else
      let record ← visitValue memory context (Record.itemKey key index) item record
      visitItems memory context key (index + 1) rest record
termination_by structural items => items

/-- Writes the entries of a map from an index on; a skipped entry takes no index. -/
def visitEntries (memory : Memory) (context : FlattenContext) (key : String) (index : Nat) :
    List (Value × Value) → Record → Walking Record
  | [], record => return record
  | (k, v) :: rest, record => do
    if k.isCollection || v.isCollection then
      Traced.note (.nestedEntry key index)
      visitEntries memory context key index rest record
    else
      let record ← visitValue memory context (Record.entryKey key index) k record
      let record ← visitValue memory context (Record.entryValueKey key index) v record
      visitEntries memory context key (index + 1) rest record
termination_by structural entries => entries

end

/-- Flattens a model and everything it holds, wherever that lies in memory. -/
def Model.flattenIn (memory : Memory) (model : Model) (context : FlattenContext) :
    Traced FlatModel := do
  let (oid, state) ← (visitInstance memory context memory.root model).run
    (.start memory model.label)
  return ⟨oid, state.records⟩

end Remodel
