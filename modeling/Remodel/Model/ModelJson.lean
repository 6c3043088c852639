import Remodel.Types

/-!
# Models as JSON

A model is an object with its set fields.  Files are objects with a name and the
text of their content, byte strings are arrays of numbers, and the keys of a map
are written as texts.

## Strategy

Reading follows the declared kinds.  A scalar is read as the value that its JSON
shows and then coerced; what has the wrong form altogether is reported with its
JSON text.  The recursion is on the JSON value, of which every nested kind reads a
part.
-/

namespace Remodel

mutual

/-- A value as JSON. -/
def Value.toJson : Value → Json
  | .string s => .string s
  | .enum name => .string name
  | .integer i => Json.ofInt i.toInt
  | .float x => Json.ofFloat x
  | .boolean b => .bool b
  | .bytes b => .array (b.map fun byte => Json.ofNat byte.toNat)
  | .file f => Json.objectOf [("filename", .string f.name), ("content", .string f.encoded)]
  | .model m => instanceJson m
  | .list items => .array (itemsToJson items)
  | .map entries => Json.objectOf (entriesToJson entries)

/-- A model as JSON: its set fields, by ascending name. -/
def instanceJson : Instance Value → Json
  | ⟨descriptor, values, _⟩ =>
    let written := valuesToJson values
    Json.objectOf (descriptor.fieldNames.filterMap fun name =>
      (written.lookup name).map (name, ·))

/-- The values of a model as JSON, each with its field. -/
def valuesToJson : List (String × Value) → List (String × Json)
  | [] => []
  | (name, value) :: rest => (name, value.toJson) :: valuesToJson rest

/-- The elements of a list as JSON. -/
def itemsToJson : List Value → List Json
  | [] => []
  | item :: rest => item.toJson :: itemsToJson rest

/-- The entries of a map as members. -/
def entriesToJson : List (Value × Value) → List (String × Json)
  | [] => []
  | (key, value) :: rest => (key.display, value.toJson) :: entriesToJson rest

end

/-- A model as JSON: its set fields, by ascending name. -/
def Model.toJson (model : Model) : Json := instanceJson model

namespace Json

/-- The fault of a JSON value that has the wrong form for a kind. -/
def formFault (json : Json) (kind : Kind) : Error :=
  .coercion ⟨json.compact, "json", kind⟩

/-- The byte that a number stands for. -/
def byte? : Json → Option UInt8
  | .number n => n.natural?.bind fun k => if k < 256 then some (UInt8.ofNat k) else none
  | _ => none

/-- The value that a scalar shows by itself. -/
def scalarValue? : Json → Option Value
  | .string s => some (.string s)
  | .bool b => some (.boolean b)
  | .number n =>
    match n.int64? with
    | some i => some (.integer i)
    | none => some (.float n.toFloat)
  | _ => none

/-- The result of a coercion as the result of an operation. -/
def liftCoercion (result : Except CoercionFault Value) : Except Error Value :=
  result.mapError .coercion

/-- Reads the file that an object describes. -/
def toFile (json : Json) : Except Error Value :=
  let name := ((json.get? "filename").bind text?).getD ""
  match ((json.get? "content").bind text?).bind (FileContent.decode? name) with
  | some file => .ok (.file file)
  | none => .error (json.formFault .file)

/-- Reads a byte string. -/
def toBytes (json : Json) : Except Error Value :=
  match json.items?.bind fun items => items.mapM byte? with
  | some bytes => .ok (.bytes bytes)
  | none => .error (json.formFault .bytes)

/-- Reads a scalar of the given kind. -/
def toScalar (json : Json) (kind : Kind) : Except Error Value :=
  match json.scalarValue? with
  | some value => liftCoercion (kind.coerce value)
  | none => .error (json.formFault kind)

mutual

/-- Reads a value of a kind. -/
def toValue (types : TypeTable) (json : Json) (kind : Kind) : Except Error Value :=
  match kind, json with
  | .model typeId, json => do return .model (← toModel types json typeId)
  | .list item, .array items => do return .list (← toValues types items item)
  | .map key value, .object members => do return .map (← toEntries types members key value)
  | .file, json => json.toFile
  | .bytes, json => json.toBytes
  | .list item, json => .error (json.formFault (.list item))
  | .map key value, json => .error (json.formFault (.map key value))
  | kind, json => json.toScalar kind
termination_by (sizeOf json, 1)

/-- Reads a model of a type; members that are no fields are passed over. -/
def toModel (types : TypeTable) (json : Json) (typeId : String) : Except Error Model := do
  let descriptor ← types.resolve typeId
  match json with
  | .object members =>
    readFields types members (Model.new descriptor) descriptor.fields
  | _ => throw (.definition (.notAnObject typeId))
termination_by (sizeOf json, 0)

/-- Reads the declared fields of a model one after another. -/
def readFields (types : TypeTable) (members : List (String × Json)) (model : Model) :
    List Field → Except Error Model
  | [] => .ok model
  | field :: rest =>
    match _hlookup : members.lookup field.name with
    | none => readFields types members model rest
    | some .null => readFields types members model rest
    | some raw => do
      let value ← toValue types raw field.kind
      readFields types members (model.put field.name value) rest
termination_by fields => (sizeOf members, sizeOf fields)
decreasing_by
  · exact Prod.Lex.right _ (by simp only [List.cons.sizeOf_spec]; omega)
  · exact Prod.Lex.right _ (by simp only [List.cons.sizeOf_spec]; omega)
  · exact Prod.Lex.left _ _ (Table.sizeOf_lt_of_lookup _hlookup)
  · exact Prod.Lex.right _ (by simp only [List.cons.sizeOf_spec]; omega)

/-- Reads the elements of a list. -/
def toValues (types : TypeTable) (items : List Json) (kind : Kind) :
    Except Error (List Value) :=
  match items with
  | [] => .ok []
  | item :: rest => do
    let value ← toValue types item kind
    return value :: (← toValues types rest kind)
termination_by (sizeOf items, 0)

/-- Reads the members of an object as the entries of a map. -/
def toEntries (types : TypeTable) (members : List (String × Json)) (key value : Kind) :
    Except Error (List (Value × Value)) :=
  match members with
  | [] => .ok []
  | (name, item) :: rest => do
    let k ← liftCoercion (key.coerce (.string name))
    let v ← toValue types item value
    return (k, v) :: (← toEntries types rest key value)
termination_by (sizeOf members, 0)

end

end Json

end Remodel
