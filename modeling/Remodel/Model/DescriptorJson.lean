import Remodel.Json.Decode
import Remodel.Model.Descriptor

/-!
# Type descriptors as JSON

A kind is an object with a member `kind` that names it and members for what it is
made of; it may also be an array that starts with the name.  A descriptor has the
members `type_id`, `id_field` and `fields`, a field the members `name`, `type` and
`writable`.

## Strategy

The name of a kind may come after its parts.  The parts are therefore read first,
each as far as it is itself a kind, and put together once the name is known.

Arrays and objects nest so many levels at most.  Only kinds nest further than their
own shape says, so that their reader is the one that counts the levels.
-/

namespace Remodel

namespace Kind

/-- The names of the kinds, in the order of their definition. -/
def tags : List String :=
  ["string", "integer", "float", "boolean", "bytes", "enum", "file", "model", "list", "map"]

/-- The members that a kind of the given name is made of, in their order. -/
def partNames (tag : String) : List String :=
  if tag = "enum" then ["variants"]
  else if tag = "model" then ["type_id"]
  else if tag = "list" then ["item"]
  else if tag = "map" then ["key", "value"]
  else []

/-- The kind as JSON. -/
def toJson : Kind → Json
  | string => .object [("kind", .string "string")]
  | integer => .object [("kind", .string "integer")]
  | float => .object [("kind", .string "float")]
  | boolean => .object [("kind", .string "boolean")]
  | bytes => .object [("kind", .string "bytes")]
  | enum variants =>
    .object [("kind", .string "enum"), ("variants", .array (variants.map Json.string))]
  | file => .object [("kind", .string "file")]
  | model typeId => .object [("kind", .string "model"), ("type_id", .string typeId)]
  | list item => .object [("kind", .string "list"), ("item", item.toJson)]
  | map key value =>
    .object [("kind", .string "map"), ("key", key.toJson), ("value", value.toJson)]

/-- A part of a kind: what was read, and the kind that it is if it is one. -/
structure Part where
  draft : Draft
  kind : Option Kind

/-- The text of a part. -/
def Part.text? (part : Part) : Option String :=
  match part.draft with
  | .string s => s
  | _ => none

/-- The texts of a part that lists texts. -/
def Part.texts? (part : Part) : Option (List String) :=
  match part.draft with
  | .array items _ => items.mapM fun item => Part.text? ⟨item, none⟩
  | _ => none

/-- The kind of a given name, from its parts. -/
def assemble (tag : String) (part? : String → Option Part) : Option Kind :=
  if tag = "string" then some .string
  else if tag = "integer" then some .integer
  else if tag = "float" then some .float
  else if tag = "boolean" then some .boolean
  else if tag = "bytes" then some .bytes
  else if tag = "file" then some .file
  else if tag = "enum" then ((part? "variants").bind Part.texts?).map .enum
  else if tag = "model" then ((part? "type_id").bind Part.text?).map .model
  else if tag = "list" then ((part? "item").bind Part.kind).map .list
  else if tag = "map" then do
    let key ← (part? "key").bind Part.kind
    let value ← (part? "value").bind Part.kind
    return .map key value
  else none

/-- The part under a key that comes exactly once. -/
def uniquePart? (parts : List (String × Part)) (key : String) : Option Part :=
  match parts.filter fun part => part.1 = key with
  | [(_, part)] => some part
  | _ => none

/-- The kind of an object's members. -/
def ofMembers (tag : Option String) (parts : List (String × Part)) : Option Kind :=
  tag.bind fun tag => assemble tag (uniquePart? parts)

/-- The kind of an array's items after the name. -/
def ofItems (tag : Option String) (parts : List Part) : Option Kind :=
  tag.bind fun tag =>
    if parts.length = (partNames tag).length then
      assemble tag fun key => ((partNames tag).zip parts).lookup key
    else none

/-- The name of a kind inside another one, where its number may stand for it. -/
def innerTag? : Draft → Option String
  | .string (some name) => if tags.contains name then some name else none
  | .number (some n) => n.natural?.bind fun i => tags[i]?
  | _ => none

/-- The name of an object's kind; it may come only once. -/
def innerTagOf (members : List (Option String × Draft)) : Option String :=
  match members.filter fun member => member.1 = some "kind" with
  | [(_, tag)] => innerTag? tag
  | _ => none

mutual

/-- Reads a kind inside another one. -/
def ofDraft? : Draft → Option Kind
  | .object members _ => ofMembers (innerTagOf members) (memberParts members)
  | .array [] _ => none
  | .array (tag :: items) _ => ofItems (innerTag? tag) (itemParts items)
  | _ => none

/-- The members of an object with the kinds that they are. -/
def memberParts : List (Option String × Draft) → List (String × Part)
  | [] => []
  | (some key, value) :: rest => (key, ⟨value, ofDraft? value⟩) :: memberParts rest
  | (none, _) :: rest => memberParts rest

/-- The items of an array with the kinds that they are. -/
def itemParts : List Draft → List Part
  | [] => []
  | item :: rest => ⟨item, ofDraft? item⟩ :: itemParts rest

end

/-- Reads the name of a kind. -/
def readTag (draft : Draft) : Except JsonFault String := do
  let name ← draft.readText
  if tags.contains name then return name else throw .misshapen

/-- Reads the members of a kind: its name where it comes, and the others completely, with
`depth` levels of nesting left. -/
def readMembers (depth : Nat) (tag : Option String) :
    List (Option String × Draft) → Except JsonFault (Option String)
  | [] => .ok tag
  | (none, _) :: _ => .error .malformed
  | (some key, value) :: rest => do
    if key = "kind" then
      if tag.isSome then throw .misshapen
      readMembers depth (some (← readTag value)) rest
    else
      let _ ← value.toJsonWithin depth
      readMembers depth tag rest

/-- Reads a kind; `depth` levels of nesting are left. -/
def readWithin : Nat → Draft → Except JsonFault Kind
  | depth + 1, .object members stop => do
    let tag ← readMembers depth none members
    match stop with
    | some fault => throw fault
    | none => Draft.required (ofMembers tag (memberParts members))
  | _ + 1, .array [] stop => .error (stop.getD .misshapen)
  | depth + 1, .array (first :: items) stop => do
    let tag ← readTag first
    let _ ← items.mapM (Draft.toJsonWithin depth)
    match stop with
    | some fault => throw fault
    | none => Draft.required (ofItems (some tag) (itemParts items))
  | 0, .object _ _ => .error .malformed
  | 0, .array _ _ => .error .malformed
  | _, draft => .error draft.mismatch

/-- Reads a kind that stands alone. -/
def read (draft : Draft) : Except JsonFault Kind := readWithin Draft.maxDepth draft

end Kind

namespace Field

/-- The field as JSON. -/
def toJson (field : Field) : Json :=
  .object [("name", .string field.name), ("type", field.kind.toJson),
    ("writable", .bool field.writable)]

/-- What has been read of a field. -/
structure Partial where
  name : Option String := none
  kind : Option Kind := none
  writable : Bool := true

/-- Reads a field, with `depth` levels of nesting left; one that does not say so is writable. -/
def read (depth : Nat) (draft : Draft) : Except JsonFault Field := do
  let fields : List (Draft.FieldReader Partial) :=
    [ ⟨"name", false, fun state d => do return { state with name := some (← d.readText) }⟩,
      ⟨"type", false, fun state d => do
        return { state with kind := some (← Kind.readWithin (depth - 1) d) }⟩,
      ⟨"writable", true, fun state d => do return { state with writable := ← d.readBool }⟩ ]
  let state ← draft.readFields fields {}
  return ⟨← Draft.required state.name, ← Draft.required state.kind, state.writable⟩

end Field

namespace Descriptor

/-- The descriptor as JSON; a missing identifying field is left out. -/
def toJson (descriptor : Descriptor) : Json :=
  let idField := match descriptor.idField with
    | some name => [("id_field", Json.string name)]
    | none => []
  .object ([("type_id", .string descriptor.typeId)] ++ idField ++
    [("fields", .array (descriptor.fields.map Field.toJson))])

/-- What has been read of a descriptor. -/
structure Partial where
  typeId : Option String := none
  idField : Option String := none
  fields : Option (List Field) := none

/-- Reads a descriptor, with `depth` levels of nesting left. -/
def read (depth : Nat) (draft : Draft) : Except JsonFault Descriptor := do
  let fields : List (Draft.FieldReader Partial) :=
    [ ⟨"type_id", false, fun state d => do return { state with typeId := some (← d.readText) }⟩,
      ⟨"id_field", true, fun state d => do return { state with idField := ← d.readOptionalText }⟩,
      ⟨"fields", false, fun state d => do
        return { state with fields := some (← d.readList (Field.read (depth - 2))) }⟩ ]
  let state ← draft.readFields fields {}
  return ⟨← Draft.required state.typeId, state.idField, ← Draft.required state.fields⟩

/-- Reads a descriptor from a text. -/
def parse (text : String) : Except JsonFault Descriptor :=
  Draft.readText? (read Draft.maxDepth) text

/-- Reads a list of descriptors from a text. -/
def parseList (text : String) : Except JsonFault (List Descriptor) :=
  Draft.readText? (Draft.readList (read (Draft.maxDepth - 1))) text

end Descriptor

end Remodel
