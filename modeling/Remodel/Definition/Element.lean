import Remodel.Error

/-!
# Elements of definitions

What the elements of a definition are for, by their names.  An element of any other
name stands for an operation.
-/

namespace Remodel.Definition

/-- What an element of a definition is for. -/
inductive Element
  /-- An element that only groups others. -/
  | group
  | transformation
  /-- An element whose text is collected. -/
  | capture (element : CaptureElement)
  | param
  | operation (name : String)
  deriving Repr, DecidableEq

/-- The element of a name. -/
def Element.named (name : String) : Element :=
  if name = "transformations" then group
  else if name = "source-fields" then group
  else if name = "params" then group
  else if name = "transformation" then transformation
  else if name = "source-field" then capture .sourceField
  else if name = "target-field" then capture .targetField
  else if name = "operation-string" then capture .operationString
  else if name = "param" then param
  else operation name

end Remodel.Definition
