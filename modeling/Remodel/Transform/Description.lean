import Remodel.Table
import Remodel.Transform.Operation
import Remodel.Transform.PadDirection

/-!
# Transformation descriptions

How the fields of one model type become fields of another: a list of steps in their
order.  A field whose name begins with `temp.` belongs to no model; it holds a value
from one step for later ones.
-/

namespace Remodel

/-- Whether a name is that of a temporary field. -/
def isTemporary (name : String) : Bool := "temp.".toList.isPrefixOf name.toList

/-- The application of an operation: the fields it reads, the field it writes, and its
parameters by ascending name. -/
structure Step where
  operation : Operation
  sources : List String
  target : Option String
  params : List (String × String)
  deriving Repr, DecidableEq, Inhabited

/-- The rules for turning models of one type into models of another.  An id and the
file of its definition are optional. -/
structure Description where
  source : String
  target : String
  id : Option String
  fileName : Option String
  steps : List Step
  deriving Repr, DecidableEq, Inhabited

namespace Step

/-- A step with parameters in any order, the last of equal names winning. -/
def make (operation : Operation) (sources : List String) (target : String)
    (params : List (String × String)) : Step :=
  ⟨operation, sources, some target, Table.ofList params⟩

/-- The value of a parameter. -/
def param? (step : Step) (name : String) : Option String := step.params.lookup name

/-- The value of the parameter that an operation string fills. -/
def filledValue? (step : Step) : Option String := step.operation.filledParam?.bind step.param?

/-- The text of a step. -/
def display (step : Step) : String :=
  step.operation.name ++ "(" ++ Text.join ", " step.sources ++ ") -> " ++ step.target.getD "?"

/-- A step that copies a value. -/
def forward (source target : String) : Step := make .forward [source] target []

/-- A step that joins values with a separator. -/
def concat (target separator : String) (sources : List String) : Step :=
  make .concat sources target [("concat", separator)]

/-- A step that takes one part between delimiters. -/
def split (source target delimiter index : String) : Step :=
  make .split [source] target [("split", delimiter), ("index", index)]

/-- A step that takes one match of a pattern. -/
def splitRegex (source target pattern index : String) : Step :=
  make .splitRegex [source] target [("regex", pattern), ("index", index)]

/-- A step that replaces some values by others. -/
def map (source target : String) (pairs : List (String × String)) : Step :=
  make .map [source] target pairs

/-- A step that takes a range of characters. -/
def substring (source target first last : String) : Step :=
  make .substring [source] target [("from", first), ("to", last)]

/-- A step that writes a text. -/
def value (target text : String) : Step := make .value [] target [("value", text)]

/-- A step that measures a value. -/
def length (source target : String) (function : Option String) : Step :=
  make .length [source] target (function.toList.map fun f => ("lengthFunction", f))

/-- A step that removes blanks at the ends. -/
def trim (source target : String) : Step := make .trim [source] target []

/-- A step that writes a text in lower case. -/
def toLower (source target : String) : Step := make .toLower [source] target []

/-- A step that writes a text in upper case. -/
def toUpper (source target : String) : Step := make .toUpper [source] target []

/-- A step that replaces every occurrence of a text. -/
def replace (source target old new : String) : Step :=
  make .replace [source] target [("old", old), ("new", new)]

/-- A step that reverses a text. -/
def reverse (source target : String) : Step := make .reverse [source] target []

/-- A step that fills a text up to a length. -/
def pad (source target length : String) (character : Char) (direction : PadDirection) : Step :=
  make .pad [source] target
    [("length", length), ("character", character.toString), ("direction", direction.text)]

/-- A step that removes a match at the front, looking at so many characters only; zero
stands for all of them. -/
def removeLeading (source target pattern length : String) : Step :=
  make .removeLeading [source] target [("regex", pattern), ("length", length)]

/-- A step that reads a text as a scalar of a named type. -/
def instantiate (source target targetType : String) : Step :=
  make .instantiate [source] target [("targetType", targetType)]

end Step

namespace Description

/-- A description without steps. -/
def new (source target : String) : Description := ⟨source, target, none, none, []⟩

/-- Whether the description leads from one type to another. -/
def connects (description : Description) (source target : String) : Bool :=
  description.source = source && description.target = target

/-- The description with one more step at the end. -/
def addStep (description : Description) (step : Step) : Description :=
  { description with steps := description.steps ++ [step] }

/-- The text of a description: its types, with its id if it has one. -/
def display (description : Description) : String :=
  description.source ++ " -> " ++ description.target ++
    match description.id with
    | some id => " [" ++ id ++ "]"
    | none => ""

end Description

end Remodel
