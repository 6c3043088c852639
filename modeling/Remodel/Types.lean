import Remodel.Model.DescriptorJson
import Remodel.Model.Value
import Remodel.Files.Tree
import Remodel.Table
import Remodel.Text.Similarity

/-!
# The table of types

Types by id.  Looking up an unknown id fails, with the most similar known id as a
suggestion.  A type may have a factory that makes its instances; a factory that
makes instances of another type cannot instantiate its type.

## Strategy

The types are a list in ascending order of ids, each id once.
-/

namespace Remodel

/-- A type in the table: its descriptor, and the type of the instances that its factory
makes if it has one. -/
structure TypeEntry where
  descriptor : Descriptor
  product : Option String
  deriving Repr, DecidableEq

/-- The known types, by ascending id. -/
structure TypeTable where
  entries : List (String × TypeEntry)
  deriving Repr, DecidableEq, Inhabited

namespace TypeTable

/-- The table without types. -/
def empty : TypeTable := ⟨[]⟩

/-- Adds a type, replacing one with the same id. -/
def insert (types : TypeTable) (descriptor : Descriptor) : TypeTable :=
  ⟨Table.insert descriptor.typeId ⟨descriptor, none⟩ types.entries⟩

/-- Adds a type with a factory for instances of `product`. -/
def insertProducing (types : TypeTable) (descriptor : Descriptor) (product : String) :
    TypeTable :=
  ⟨Table.insert descriptor.typeId ⟨descriptor, some product⟩ types.entries⟩

/-- Adds several types, in their order. -/
def insertAll (types : TypeTable) (descriptors : List Descriptor) : TypeTable :=
  descriptors.foldl insert types

/-- The ids of the types, ascending. -/
def ids (types : TypeTable) : List String := types.entries.map Prod.fst

/-- The number of types. -/
def size (types : TypeTable) : Nat := types.entries.length

/-- Whether there is a type of an id. -/
def contains (types : TypeTable) (typeId : String) : Bool := (types.entries.lookup typeId).isSome

/-- Removes a type. -/
def erase (types : TypeTable) (typeId : String) : TypeTable := ⟨Table.erase typeId types.entries⟩

/-- Removes a type, and says whether it was known. -/
def remove (types : TypeTable) (typeId : String) : TypeTable × Bool :=
  (types.erase typeId, types.contains typeId)

/-- Adds the types that a JSON text lists, and counts them. -/
def insertText (types : TypeTable) (text : String) : Except Error (TypeTable × Nat) :=
  match Descriptor.parseList text with
  | .ok descriptors => .ok (types.insertAll descriptors, descriptors.length)
  | .error fault => .error (.json fault)

/-- Adds the types that a file lists, and counts them. -/
def insertFile (types : TypeTable) (files : FileTree) (path : String) :
    Except Error (TypeTable × Nat) := do
  types.insertText (← (files.readText path).mapError Error.file)

/-- The descriptor of a type. -/
def resolve (types : TypeTable) (typeId : String) : Except Error Descriptor :=
  match types.entries.lookup typeId with
  | some type => .ok type.descriptor
  | none => .error (.typeNotFound typeId (Text.Similarity.best typeId types.ids))

/-- An empty instance of a resolved type. -/
def blank (types : TypeTable) (descriptor : Descriptor) : Except Error Model :=
  match (types.entries.lookup descriptor.typeId).bind TypeEntry.product with
  | none => .ok (Model.new descriptor)
  | some product =>
    if product = descriptor.typeId then .ok (Model.new descriptor)
    else .error (.instantiation descriptor.typeId product)

/-- An empty instance of a type. -/
def instantiate (types : TypeTable) (typeId : String) : Except Error Model := do
  types.blank (← types.resolve typeId)

end TypeTable

end Remodel
