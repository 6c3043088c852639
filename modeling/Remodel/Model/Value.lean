import Remodel.Codec.Base64
import Remodel.Decimal.Layout
import Remodel.Model.Descriptor
import Remodel.Table

/-!
# Values and models

A value of a field, and a model: an instance of a type with values for some of its
fields.  Values nest: a model may hold models, also inside lists and maps.

## Strategy

Two occurrences of a model are the same instance when they carry the same label.  A
model without label is one that is built anew whenever it is read, so that no two
readings give the same instance.  Labels matter only to a writer that must not
write an instance twice; equality does not look at them.
-/

namespace Remodel

/-- Binary content together with the name of the file it came from. -/
structure FileContent where
  name : String
  content : Codec.Bytes
  deriving Repr, DecidableEq, Inhabited

namespace FileContent

/-- The content as text. -/
def encoded (file : FileContent) : String := Codec.Base64.encode file.content

/-- A file from its name and the text of its content. -/
def decode? (name encoded : String) : Option FileContent :=
  (Codec.Base64.decode? encoded).map (FileContent.mk name)

end FileContent

/-- An instance of a type whose fields hold values of type `α`. -/
structure Instance (α : Type) where
  descriptor : Descriptor
  values : List (String × α)
  label : Option Nat
  deriving Inhabited

/-- A value of a field. -/
inductive Value
  | string (s : String)
  | integer (i : Int64)
  | float (x : Float)
  | boolean (b : Bool)
  | bytes (b : Codec.Bytes)
  /-- A variant of an enumeration, by name. -/
  | enum (name : String)
  | file (file : FileContent)
  | model (model : Instance Value)
  | list (items : List Value)
  /-- Keys with values; any value may be a key, and keys may repeat. -/
  | map (entries : List (Value × Value))
  deriving Inhabited

/-- A model: an instance of a type with values for some of its fields. -/
abbrev Model := Instance Value

namespace Value

/-- The name of a value's kind, as messages show it. -/
def kindText : Value → String
  | string _ => "string"
  | integer _ => "integer"
  | float _ => "float"
  | boolean _ => "boolean"
  | bytes _ => "bytes"
  | enum _ => "enum"
  | file _ => "file"
  | model _ => "model"
  | list _ => "list"
  | map _ => "map"

/-- The text of a string value. -/
def text? : Value → Option String
  | string s => some s
  | _ => none

/-- The model of a model value. -/
def model? : Value → Option Model
  | model m => some m
  | _ => none

/-- The elements of a list. -/
def items? : Value → Option (List Value)
  | list items => some items
  | _ => none

/-- The entries of a map. -/
def entries? : Value → Option (List (Value × Value))
  | map entries => some entries
  | _ => none

/-- Whether the value is a list or a map. -/
def isCollection : Value → Bool
  | list _ => true
  | map _ => true
  | _ => false

/-- The result of a named measurement; nothing if the value does not answer it. -/
def measure? (value : Value) (function : String) : Option Nat :=
  let isLength := function = "length" || function = "len"
  let isSize := isLength || function = "size"
  match value with
  | string s =>
    if isLength then some s.length
    else if function = "bytes" then some s.utf8ByteSize
    else none
  | enum name => if isLength then some name.length else none
  | list items => if isSize then some items.length else none
  | map entries => if isSize then some entries.length else none
  | bytes b => if isSize then some b.length else none
  | file f => if isSize then some f.content.length else none
  | _ => none

mutual

/-- The text of a value. -/
def display : Value → String
  | string s => s
  | integer i => Text.ofInt64 i
  | float x => Decimal.plain.text x
  | boolean b => if b then "true" else "false"
  | bytes b => Codec.Base64.encode b
  | enum name => name
  | file f => f.name
  | model m => displayModel m
  | list items => "[" ++ Text.join ", " (displayItems items) ++ "]"
  | map entries => "\x7b" ++ Text.join ", " (displayEntries entries) ++ "\x7d"

/-- The text of a model: its type, with its id if it has one. -/
def displayModel : Instance Value → String
  | ⟨descriptor, values, _⟩ =>
    match descriptor.idField.bind (displayField values) with
    | some id => descriptor.typeId ++ "(" ++ id ++ ")"
    | none => descriptor.typeId

/-- The text of the value that a field holds. -/
def displayField : List (String × Value) → String → Option String
  | [], _ => none
  | (name, value) :: rest, field =>
    if name = field then some (display value) else displayField rest field

/-- The texts of the elements of a list. -/
def displayItems : List Value → List String
  | [] => []
  | item :: rest => display item :: displayItems rest

/-- The texts of the entries of a map. -/
def displayEntries : List (Value × Value) → List String
  | [] => []
  | (key, value) :: rest => (display key ++ ": " ++ display value) :: displayEntries rest

end

end Value

namespace Instance

variable {α : Type}

/-- A model of a type with no field set. -/
def new (descriptor : Descriptor) : Instance α := ⟨descriptor, [], none⟩

/-- The id of the model's type. -/
def typeId (model : Instance α) : String := model.descriptor.typeId

/-- The value that a field holds. -/
def get? (model : Instance α) (field : String) : Option α := model.values.lookup field

/-- Whether no field is set. -/
def isEmpty (model : Instance α) : Bool := model.values.isEmpty

/-- Puts a value into a field, without asking whether it may stand there. -/
def put (model : Instance α) (field : String) (value : α) : Instance α :=
  { model with values := Table.insert field value model.values }

/-- Takes the value out of a field. -/
def unset (model : Instance α) (field : String) : Option α × Instance α :=
  (model.get? field, { model with values := Table.erase field model.values })

/-- The set fields with their declarations, in the order of declaration. -/
def entries (model : Instance α) : List (Field × α) :=
  model.descriptor.fields.filterMap fun field => (model.get? field.name).map (field, ·)

/-- The id of the model: the text of the value of its identifying field. -/
def id? (model : Model) : Option String :=
  (model.descriptor.idField.bind model.get?).map Value.display

@[simp] theorem get?_new (descriptor : Descriptor) (field : String) :
    (new descriptor : Instance α).get? field = none := rfl

@[simp] theorem get?_put_self (model : Instance α) (field : String) (value : α) :
    (model.put field value).get? field = some value := by
  simp [put, get?]

theorem get?_put_of_ne (model : Instance α) {field name : String} (value : α)
    (hne : name ≠ field) : (model.put field value).get? name = model.get? name := by
  simp [put, get?, Table.lookup_insert, hne]

end Instance

/-- An empty model of a type. -/
def Model.new (descriptor : Descriptor) : Model := Instance.new descriptor

end Remodel
