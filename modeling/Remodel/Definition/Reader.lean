import Remodel.Definition.Element
import Remodel.Markup.Event
import Remodel.Text.Blank
import Remodel.Trace
import Remodel.Transform.Description
import Remodel.Types

/-!
# Reading definitions

A definition is a document with an element for every description of a transformation;
the elements inside it are its steps, and the elements inside these name the fields and
parameters of the step.  The types of every description must be known.

## Strategy

`Reader` is what has been collected so far.  Every event takes it to the next one or
stops with the first error; what a step consists of is collected until the element of
its operation closes.
-/

namespace Remodel.Definition

open Markup (Event Tag Document)

/-- The descriptions that are complete, the open description, the open operation with the
name of its element, what has been collected for its step, and the element whose text is
being collected. -/
structure Reader where
  finished : List Description
  active : Option Description
  operation : Option (String × Operation)
  sources : List String
  target : Option String
  operationString : Option String
  params : List (String × String)
  capture : Option CaptureElement
  buffer : String
  deriving Repr, DecidableEq, Inhabited

namespace Reader

/-- The reader before the first event. -/
def start : Reader := ⟨[], none, none, [], none, none, [], none, ""⟩

/-- The result of something that may be wrong in a definition. -/
def orFault {α : Type} (fault : DefinitionFault) : Option α → Except Error α
  | some value => .ok value
  | none => .error (.definition fault)

/-- The attributes of a tag. -/
def attributes (tag : Tag) : Except Error (List (String × String)) :=
  (Markup.attributes tag.attributeText).mapError .markup

/-! ### Opening elements -/

/-- Opens a description. -/
def openTransformation (types : TypeTable) (reader : Reader) (tag : Tag) :
    Except Error Reader := do
  if reader.active.isSome then throw (.definition .nestedTransformation)
  let given ← attributes tag
  let source ← orFault (.missingAttribute "source") (given.lookup "source")
  let target ← orFault (.missingAttribute "target") (given.lookup "target")
  let source ← types.resolve source
  let target ← types.resolve target
  let description := Description.new source.typeId target.typeId
  return { reader with active := some { description with id := given.lookup "id" } }

/-- Begins to collect the text of an element. -/
def openCapture (reader : Reader) (element : CaptureElement) : Except Error Reader :=
  if reader.operation.isSome then .ok { reader with capture := some element, buffer := "" }
  else .error (.definition (.captureOutsideOperation element))

/-- Collects a parameter. -/
def openParam (reader : Reader) (tag : Tag) : Except Error Reader := do
  let given ← attributes tag
  let key ← orFault .keylessParameter (given.lookup "key")
  let value := (given.lookup "value").getD ""
  return { reader with params := Table.insert key value reader.params }

/-- Opens an operation. -/
def openOperation (reader : Reader) (name : String) : Except Error Reader :=
  if reader.active.isNone then .error (.definition (.outsideTransformation name))
  else
    match reader.operation with
    | some (surrounding, _) => .error (.definition (.nestedOperation name surrounding))
    | none =>
      match Operation.parse name with
      | .ok operation => .ok { reader with operation := some (name, operation) }
      | .error fault => .error (.definition fault)

/-- Opens the element of a tag. -/
def opening (types : TypeTable) (reader : Reader) (tag : Tag) : Except Error Reader :=
  match Element.named tag.name with
  | .group => .ok reader
  | .transformation => reader.openTransformation types tag
  | .capture element => reader.openCapture element
  | .param => reader.openParam tag
  | .operation name => reader.openOperation name

/-! ### Texts and closing elements -/

/-- Collects a text if one is wanted. -/
def text (reader : Reader) (content : String) : Reader :=
  if reader.capture.isSome then { reader with buffer := reader.buffer ++ content } else reader

/-- Puts the collected text where it belongs.  Blanks at the ends of field names do not
count, those of an operation string do. -/
def closeCapture (reader : Reader) : Reader :=
  let emptied := { reader with capture := none, buffer := "" }
  match reader.capture with
  | some .sourceField =>
    { emptied with sources := reader.sources ++ [Text.trim reader.buffer] }
  | some .targetField => { emptied with target := some (Text.trim reader.buffer) }
  | some .operationString => { emptied with operationString := some reader.buffer }
  | none => emptied

/-- Completes the open description. -/
def closeTransformation (reader : Reader) : Except Error Reader := do
  let description ← orFault .unbalancedTransformation reader.active
  return { reader with finished := reader.finished ++ [description], active := none }

/-- The reader with nothing collected for a step. -/
def cleared (reader : Reader) : Reader :=
  { reader with
    operation := none, sources := [], target := none, operationString := none, params := [] }

/-- The parameters of a step: an operation string fills the parameter that the operation
has for it, and is reported if there is none. -/
def stepParams (reader : Reader) (operation : Operation) : Traced (List (String × String)) :=
  match reader.operationString, operation.filledParam? with
  | some value, some key => pure (Table.insert key value reader.params)
  | some _, none => do
    Traced.note (.operationStringIgnored operation.name)
    return reader.params
  | none, _ => pure reader.params

/-- Adds the step of the open operation to the open description. -/
def closeOperation (reader : Reader) : Attempt Error Reader := do
  match reader.operation with
  | none => return reader
  | some (name, operation) =>
    if operation.readsSource && reader.sources.isEmpty then
      throw (.definition (.noSourceField name))
    match reader.target with
    | none => throw (.definition (.noTargetField name))
    | some target =>
      if target.isEmpty then throw (.definition (.noTargetField name))
      let params ← reader.stepParams operation
      match reader.active with
      | none => throw (.definition (.outsideTransformation name))
      | some description =>
        let step : Step := ⟨operation, reader.sources, some target, params⟩
        return { reader.cleared with active := some (description.addStep step) }

/-- Closes the element of a name. -/
def closing (reader : Reader) (name : String) : Attempt Error Reader := do
  match Element.named name with
  | .group => return reader
  | .param => return reader
  | .capture _ => return reader.closeCapture
  | .transformation => reader.closeTransformation
  | .operation _ => reader.closeOperation

/-! ### Whole documents -/

/-- Takes one event. -/
def take (types : TypeTable) (reader : Reader) : Event → Attempt Error Reader
  | .opening tag => reader.opening types tag
  | .empty tag => do (← reader.opening types tag).closing tag.name
  | .closing name => reader.closing name
  | .text content => return reader.text content

/-- Takes events one after another. -/
def takeAll (types : TypeTable) (reader : Reader) : List Event → Attempt Error Reader
  | [] => return reader
  | event :: rest => do (← reader.take types event).takeAll types rest

/-- The descriptions at the end of a document; none may be open. -/
def finish (reader : Reader) : Except Error (List Description) :=
  match reader.active with
  | some description => .error (.definition (.unclosedTransformation description.display))
  | none => .ok reader.finished

end Reader

/-- The descriptions of a document. -/
def ofDocument (types : TypeTable) (document : Document) : Attempt Error (List Description) := do
  let reader ← Reader.start.takeAll types document.events
  match document.fault with
  | some fault => throw (.markup fault)
  | none => reader.finish

/-- The descriptions that a definition text holds. -/
def read (types : TypeTable) (text : String) : Attempt Error (List Description) :=
  ofDocument types (.ofText text)

end Remodel.Definition
