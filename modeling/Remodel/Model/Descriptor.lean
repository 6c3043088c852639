import Remodel.Model.Kind

/-!
# Type descriptors

A model type is described by its id, the field that identifies an instance, and
its fields in the order of their declaration.  A name may be declared twice; a
look-up then finds the first declaration.
-/

namespace Remodel

/-- One declared field. -/
structure Field where
  name : String
  kind : Kind
  writable : Bool
  deriving Repr, DecidableEq, Inhabited

/-- A model type: its id, its identifying field and its fields. -/
structure Descriptor where
  typeId : String
  idField : Option String
  fields : List Field
  deriving Repr, DecidableEq, Inhabited

namespace Descriptor

/-- A type without fields. -/
def named (typeId : String) : Descriptor := ⟨typeId, none, []⟩

/-- The type with a field that identifies its instances. -/
def withIdField (descriptor : Descriptor) (name : String) : Descriptor :=
  { descriptor with idField := some name }

/-- The type with one more field at the end. -/
def withField (descriptor : Descriptor) (field : Field) : Descriptor :=
  { descriptor with fields := descriptor.fields ++ [field] }

/-- The first declared field of a name. -/
def field? (descriptor : Descriptor) (name : String) : Option Field :=
  descriptor.fields.find? fun field => field.name = name

/-- The names of the fields, in the order of their declaration. -/
def fieldNames (descriptor : Descriptor) : List String :=
  descriptor.fields.map Field.name

/-- The fields that may be written, in the order of their declaration. -/
def writableFields (descriptor : Descriptor) : List Field :=
  descriptor.fields.filter Field.writable

theorem name_of_field? {descriptor : Descriptor} {name : String} {field : Field}
    (hfield : descriptor.field? name = some field) : field.name = name := by
  simpa using List.find?_some hfield

theorem mem_of_field? {descriptor : Descriptor} {name : String} {field : Field}
    (hfield : descriptor.field? name = some field) : field ∈ descriptor.fields :=
  List.mem_of_find?_eq_some hfield

end Descriptor

end Remodel
