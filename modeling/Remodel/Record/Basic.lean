import Remodel.Model.Value
import Remodel.Record.Keys

/-!
# Records

The stored form of a model: scalars by key, with an id of its own and a version
that the store assigns.

## Strategy

The entries are a list in ascending order of keys, each key once.  What a record
holds is seen through `Record.get?`, and `get?_put_self` and `get?_put_of_ne` say
what putting an entry does to it.
-/

namespace Remodel

/-- A scalar stored under one key. -/
inductive Scalar
  | boolean (b : Bool)
  | integer (i : Int64)
  | float (x : Float)
  | string (s : String)
  | bytes (b : Codec.Bytes)
  deriving Repr, DecidableEq, Inhabited

namespace Scalar

/-- Equality of scalars; floats are compared as numbers. -/
def same : Scalar → Scalar → Bool
  | boolean a, boolean b => a = b
  | integer a, integer b => a = b
  | float a, float b => a == b
  | string a, string b => a = b
  | bytes a, bytes b => a = b
  | _, _ => false

/-- The text of a string scalar. -/
def text? : Scalar → Option String
  | string s => some s
  | _ => none

/-- The scalar as a value of a model. -/
def toValue : Scalar → Value
  | boolean b => .boolean b
  | integer i => .integer i
  | float x => .float x
  | string s => .string s
  | bytes b => .bytes b

/-- The stored form of a value that is a scalar; a variant is stored by its name. -/
def ofValue? : Value → Option Scalar
  | .string s => some (string s)
  | .integer i => some (integer i)
  | .float x => some (float x)
  | .boolean b => some (boolean b)
  | .bytes b => some (bytes b)
  | .enum name => some (string name)
  | _ => none

/-- The text of a scalar. -/
def display (scalar : Scalar) : String := scalar.toValue.display

end Scalar

/-- The connector for which models are stored. -/
structure Identity where
  domainId : String
  connectorId : String
  instanceId : String
  deriving Repr, DecidableEq, Inhabited

namespace Identity

/-- What all record ids of the connector begin with. -/
def oidSpace (identity : Identity) : String := identity.domainId ++ "/" ++ identity.connectorId

/-- The record id of a model whose part of the id is given. -/
def oid (identity : Identity) (part : String) : String := identity.oidSpace ++ "/" ++ part

end Identity

/-- A stored model: its id, its scalars by ascending key, and its version. -/
structure Record where
  oid : String
  entries : List (String × Scalar)
  version : Nat
  deriving Repr, DecidableEq, Inhabited

namespace Record

/-- A record without entries. -/
def new (oid : String) : Record := ⟨oid, [], 0⟩

/-- Puts an entry into a record. -/
def put (record : Record) (key : String) (scalar : Scalar) : Record :=
  { record with entries := Table.insert key scalar record.entries }

/-- The scalar under a key. -/
def get? (record : Record) (key : String) : Option Scalar := record.entries.lookup key

/-- The text under a key; nothing if there is no text. -/
def text? (record : Record) (key : String) : Option String := (record.get? key).bind Scalar.text?

/-- Whether there is an entry under a key. -/
def contains (record : Record) (key : String) : Bool := (record.get? key).isSome

/-- The record without the entry under a key. -/
def erase (record : Record) (key : String) : Record :=
  { record with entries := Table.erase key record.entries }

/-- Removes the entry under a key, and gives its value. -/
def remove (record : Record) (key : String) : Record × Option Scalar :=
  (record.erase key, record.get? key)

/-- The keys, ascending. -/
def keys (record : Record) : List String := record.entries.map Prod.fst

/-- The type of the model that the record was made from. -/
def modelType? (record : Record) : Option String := record.text? modelTypeKey

/-- The record with its connector and the type of its model, whatever stood there. -/
def stamp (record : Record) (identity : Identity) (typeId : String) : Record :=
  (((record.put domainKey (.string identity.domainId)).put
    connectorKey (.string identity.connectorId)).put
    instanceKey (.string identity.instanceId)).put
    modelTypeKey (.string typeId)

/-- Whether the record holds every wanted scalar. -/
def satisfies (record : Record) (criteria : List (String × Scalar)) : Bool :=
  criteria.all fun wanted =>
    match record.get? wanted.1 with
    | some scalar => scalar.same wanted.2
    | none => false

/-- The text of a record. -/
def display (record : Record) : String :=
  record.oid ++ " (v" ++ Text.ofNat record.version ++ ") \x7b" ++
    Text.join "," (record.entries.map fun entry => " " ++ entry.1 ++ ": " ++ entry.2.display) ++
    " \x7d"

@[simp] theorem get?_put_self (record : Record) (key : String) (scalar : Scalar) :
    (record.put key scalar).get? key = some scalar := by
  simp [put, get?]

theorem get?_put_of_ne (record : Record) {key name : String} (scalar : Scalar)
    (hne : name ≠ key) : (record.put key scalar).get? name = record.get? name := by
  simp [put, get?, Table.lookup_insert, hne]

@[simp] theorem oid_put (record : Record) (key : String) (scalar : Scalar) :
    (record.put key scalar).oid = record.oid := rfl

@[simp] theorem modelType?_stamp (record : Record) (identity : Identity) (typeId : String) :
    (record.stamp identity typeId).modelType? = some typeId := by
  simp [stamp, modelType?, text?, Scalar.text?]

end Record

end Remodel
