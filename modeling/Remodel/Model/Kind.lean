import Remodel.Text.Parts

/-!
# Kinds of fields

What a field of a model type may hold.  Lists and maps nest to any depth; a model
kind names another type and does not contain it.
-/

namespace Remodel

/-- The declared kind of a field. -/
inductive Kind
  | string
  | integer
  | float
  | boolean
  | bytes
  /-- One of the named variants. -/
  | enum (variants : List String)
  /-- Binary content with the name of a file. -/
  | file
  /-- A model of the given type. -/
  | model (typeId : String)
  | list (item : Kind)
  /-- Keys with values, in the order in which they were put in. -/
  | map (key value : Kind)
  deriving Repr, DecidableEq, Inhabited

namespace Kind

/-- The text of a kind, as messages show it. -/
def text : Kind → String
  | string => "string"
  | integer => "integer"
  | float => "float"
  | boolean => "boolean"
  | bytes => "bytes"
  | enum variants => "enum(" ++ Text.join "|" variants ++ ")"
  | file => "file"
  | model typeId => "model(" ++ typeId ++ ")"
  | list item => "list(" ++ item.text ++ ")"
  | map key value => "map(" ++ key.text ++ ", " ++ value.text ++ ")"

/-- Whether the kind is that of nested models. -/
def isModel : Kind → Bool
  | model _ => true
  | _ => false

/-- Whether the kind is a list. -/
def isList : Kind → Bool
  | list _ => true
  | _ => false

/-- Whether the kind is a map. -/
def isMap : Kind → Bool
  | map _ _ => true
  | _ => false

/-- Whether the kind is that of files. -/
def isFile : Kind → Bool
  | file => true
  | _ => false

/-- Whether the kind is an enumeration. -/
def isEnum : Kind → Bool
  | enum _ => true
  | _ => false

/-- The type of the nested models. -/
def modelType? : Kind → Option String
  | model typeId => some typeId
  | _ => none

/-- The kind of the elements of a list. -/
def item? : Kind → Option Kind
  | list item => some item
  | _ => none

/-- The kinds of the keys and the values of a map. -/
def entry? : Kind → Option (Kind × Kind)
  | map key value => some (key, value)
  | _ => none

/-- The kind that a list reader uses for an element: that of the list, or the kind
itself where no list is declared. -/
def elementKind (kind : Kind) : Kind := kind.item?.getD kind

/-- The kinds that a map reader uses for keys and values. -/
def entryOrSelf (kind : Kind) : Kind × Kind := kind.entry?.getD (kind, kind)

end Kind

end Remodel
