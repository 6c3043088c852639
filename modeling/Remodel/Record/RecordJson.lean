import Remodel.Json.Decode
import Remodel.Record.Basic

/-!
# Records as JSON

A record is an object with the members `oid`, `entries` and `version`, in this
order.  A scalar is written as the JSON value that shows it, without a mark of its
kind: reading tries the kinds one after another and takes the first that fits.
-/

namespace Remodel

namespace Scalar

/-- The scalar as JSON. -/
def toJson : Scalar → Json
  | boolean b => .bool b
  | integer i => Json.ofInt i.toInt
  | float x => Json.ofFloat x
  | string s => .string s
  | bytes b => .array (b.map fun byte => Json.ofNat byte.toNat)

/-- The byte that a JSON number stands for. -/
def byte? : Json → Option UInt8
  | .number n => n.natural?.bind fun k => if k < 256 then some (UInt8.ofNat k) else none
  | _ => none

/-- The scalar that a JSON value shows. -/
def ofJson? : Json → Option Scalar
  | .bool b => some (boolean b)
  | .number n =>
    match n.int64? with
    | some i => some (integer i)
    | none => some (float n.toFloat)
  | .string s => some (string s)
  | .array items => (items.mapM byte?).map bytes
  | _ => none

/-- Reads a scalar inside the two objects of a record. -/
def read (draft : Draft) : Except JsonFault Scalar := do
  Draft.required (ofJson? (← draft.toJsonWithin (Draft.maxDepth - 2)))

end Scalar

namespace Record

/-- The record as JSON. -/
def toJson (record : Record) : Json :=
  .object
    [ ("oid", .string record.oid),
      ("entries", .object (record.entries.map fun entry => (entry.1, entry.2.toJson))),
      ("version", Json.ofNat record.version) ]

/-- What has been read of a record. -/
structure Partial where
  oid : Option String := none
  entries : Option (List (String × Scalar)) := none
  version : Nat := 0

/-- Reads a record; a missing version is zero. -/
def read (draft : Draft) : Except JsonFault Record := do
  let fields : List (Draft.FieldReader Partial) :=
    [ ⟨"oid", false, fun state d => do return { state with oid := some (← d.readText) }⟩,
      ⟨"entries", false, fun state d => do
        return { state with entries := some (Table.ofList (← d.readTable Scalar.read)) }⟩,
      ⟨"version", true, fun state d => do return { state with version := ← d.readNatural }⟩ ]
  let state ← draft.readFields fields {}
  return ⟨← Draft.required state.oid, ← Draft.required state.entries, state.version⟩

/-- Reads a record from a text. -/
def parse (text : String) : Except JsonFault Record := Draft.readText? read text

end Record

end Remodel
