import Remodel.Json.Draft
import Remodel.Model.Coercion

/-!
# Errors

What can go wrong, as causes, and the wording of each cause.

## Strategy

Every activity has its own type of faults; `Error` joins those that end a whole
operation.  The words stand in the `message` functions only, so that nothing is
ever decided by comparing texts.
-/

namespace Remodel

/-- Why a field cannot be written. -/
inductive FieldFault
  | noSuchField (typeId field : String)
  | typeMismatch (field : String) (expected : Kind) (actual : String)
  | notWritable (field : String)
  deriving Repr, DecidableEq

/-- The text of a field fault. -/
def FieldFault.message : FieldFault → String
  | noSuchField typeId field => "type " ++ typeId ++ " has no field '" ++ field ++ "'"
  | typeMismatch field expected actual =>
    "field '" ++ field ++ "' expects " ++ expected.text ++ ", got " ++ actual
  | notWritable field => "field '" ++ field ++ "' is not writable"

/-- Why a parameter of a step has no meaning. -/
inductive ParameterFault
  | emptyPadCharacter
  | unknownDirection (text : String)
  | unsupportedType (text : String)
  deriving Repr, DecidableEq

/-- The parameter that is at fault. -/
def ParameterFault.parameter : ParameterFault → String
  | emptyPadCharacter => "character"
  | unknownDirection _ => "direction"
  | unsupportedType _ => "targetType"

/-- What is wrong with the parameter. -/
def ParameterFault.reason : ParameterFault → String
  | emptyPadCharacter => "empty pad character"
  | unknownDirection text => "'" ++ text ++ "' is neither Start nor End"
  | unsupportedType text => "unsupported type '" ++ text ++ "'"

/-- Why a step of a transformation is skipped. -/
inductive StepFault
  | missingSource
  | missingTarget
  | unsetSource (field : String)
  | missingTemporary (field : String)
  | notText (field actual : String)
  | missingParameter (name : String)
  | invalidNumber (parameter value : String)
  | invalidPattern (pattern : String)
  | noMatch (pattern : String) (index : Nat)
  | invalidRange (first last length : Nat)
  | invalidParameter (fault : ParameterFault)
  | instantiation (targetType value : String)
  | field (fault : FieldFault)
  | coercion (fault : CoercionFault)
  deriving Repr, DecidableEq

/-- The text of a step fault. -/
def StepFault.message : StepFault → String
  | missingSource => "step has no source field"
  | missingTarget => "step has no target field"
  | unsetSource name => "source field '" ++ name ++ "' is not set"
  | missingTemporary name => "temporary field '" ++ name ++ "' doesn't exist"
  | notText name actual => "field '" ++ name ++ "' holds " ++ actual ++ ", expected a string"
  | missingParameter name => "there is no parameter with the name '" ++ name ++ "' present"
  | invalidNumber parameter value =>
    "the string '" ++ value ++ "' given for '" ++ parameter ++ "' is not a number"
  | invalidPattern pattern => "regex '" ++ pattern ++ "' can't be compiled"
  | noMatch pattern index =>
    "regex '" ++ pattern ++ "' has no match with index " ++ Text.ofNat index
  | invalidRange first last length =>
    "invalid range " ++ Text.ofNat first ++ ".." ++ Text.ofNat last ++
      " for a string of length " ++ Text.ofNat length
  | invalidParameter fault => "invalid parameter '" ++ fault.parameter ++ "': " ++ fault.reason
  | instantiation targetType value =>
    "unable to instantiate " ++ targetType ++ " from '" ++ value ++ "'"
  | field fault => fault.message
  | coercion fault => fault.message

/-- Why a record store refuses a request. -/
inductive StoreFault
  | notFound (oid : String)
  | alreadyExists (oid : String)
  /-- The store itself is out of order. -/
  | backend (reason : String)
  deriving Repr, DecidableEq

/-- The text of a store fault. -/
def StoreFault.message : StoreFault → String
  | notFound oid => "no record with OID '" ++ oid ++ "'"
  | alreadyExists oid => "a record with OID '" ++ oid ++ "' already exists"
  | backend reason => "record store backend failure: " ++ reason

/-- An element whose text is collected while a definition is read. -/
inductive CaptureElement
  | sourceField
  | targetField
  | operationString
  deriving Repr, DecidableEq

/-- The name under which messages know the element. -/
def CaptureElement.text : CaptureElement → String
  | sourceField => "SourceField"
  | targetField => "TargetField"
  | operationString => "OperationString"

/-- Why a definition has no meaning. -/
inductive DefinitionFault
  | notAnObject (typeId : String)
  | unknownOperation (name : String)
  | nestedTransformation
  | missingAttribute (name : String)
  | keylessParameter
  | outsideTransformation (element : String)
  | nestedOperation (element surrounding : String)
  | captureOutsideOperation (element : CaptureElement)
  | unbalancedTransformation
  | noSourceField (element : String)
  | noTargetField (element : String)
  | unclosedTransformation (description : String)
  deriving Repr, DecidableEq

/-- The text of a definition fault. -/
def DefinitionFault.message : DefinitionFault → String
  | notAnObject typeId => "expected a JSON object for type " ++ typeId
  | unknownOperation name => "unknown operation '" ++ name ++ "'"
  | nestedTransformation => "nested <transformation> element"
  | missingAttribute name => "<transformation> without " ++ name ++ " attribute"
  | keylessParameter => "<param> without key attribute"
  | outsideTransformation element => "<" ++ element ++ "> outside of a <transformation>"
  | nestedOperation element surrounding => "<" ++ element ++ "> nested in <" ++ surrounding ++ ">"
  | captureOutsideOperation element => element.text ++ " element outside of an operation"
  | unbalancedTransformation => "unbalanced </transformation>"
  | noSourceField element => "<" ++ element ++ "> has no source-field"
  | noTargetField element => "<" ++ element ++ "> has no target-field"
  | unclosedTransformation description => "unclosed <transformation> " ++ description

/-- Why a text is not markup. -/
inductive MarkupFault
  /-- A closing tag without its opening tag. -/
  | endMismatch
  /-- A construct that is not closed. -/
  | unexpectedEnd
  | invalidAttribute
  /-- A reference that stands for no character. -/
  | invalidReference
  /-- An exclamation mark that opens no known construct. -/
  | unexpectedBang
  | emptyDoctype
  deriving Repr, DecidableEq

/-- The text of a markup fault. -/
def MarkupFault.message : MarkupFault → String
  | endMismatch => "a closing tag has no opening tag"
  | unexpectedEnd => "the document ends inside a construct"
  | invalidAttribute => "an attribute is not well formed"
  | invalidReference => "a reference stands for no character"
  | unexpectedBang => "an exclamation mark opens no construct"
  | emptyDoctype => "a document type is empty"

/-- The text of a fault of JSON text. -/
def JsonFault.message : JsonFault → String
  | malformed => "the text is not JSON"
  | unfinished => "the text ends too early"
  | misshapen => "the text is JSON of another shape"

/-- Why a file cannot be used. -/
inductive FileFault
  | notFound
  /-- A part of the path is a file. -/
  | notADirectory
  | isADirectory
  /-- The content is not text. -/
  | invalidData
  deriving Repr, DecidableEq

/-- The text of a file fault. -/
def FileFault.message : FileFault → String
  | notFound => "No such file or directory (os error 2)"
  | notADirectory => "Not a directory (os error 20)"
  | isADirectory => "Is a directory (os error 21)"
  | invalidData => "stream did not contain valid UTF-8"

/-- What ends an operation. -/
inductive Error
  | typeNotFound (typeId : String) (suggestion : Option String)
  /-- The type's factory made an instance of another type. -/
  | instantiation (typeId product : String)
  | noTransformation (source target : String)
  | store (fault : StoreFault)
  | field (fault : FieldFault)
  | coercion (fault : CoercionFault)
  | definition (fault : DefinitionFault)
  | markup (fault : MarkupFault)
  | file (fault : FileFault)
  | json (fault : JsonFault)
  deriving Repr, DecidableEq

namespace Error

/-- The text of an error. -/
def message : Error → String
  | typeNotFound typeId none => "Type not found: " ++ typeId
  | typeNotFound typeId (some suggestion) =>
    "Type not found: " ++ typeId ++ " (did you mean '" ++ suggestion ++ "'?)"
  | instantiation typeId product =>
    "Unable to instantiate type " ++ typeId ++ ": factory produced an instance of " ++ product
  | noTransformation source target =>
    "No transformation description found from " ++ source ++ " to " ++ target
  | store fault => "Record store error: " ++ fault.message
  | field fault => "Field access error: " ++ fault.message
  | coercion fault => "Coercion error: " ++ fault.message
  | definition fault => "Invalid transformation definition: " ++ fault.message
  | markup fault => "XML error: " ++ fault.message
  | file fault => "IO error: " ++ fault.message
  | json fault => "JSON error: " ++ fault.message

/-- The text of the fault that led to an error, if there is one behind it. -/
def cause? : Error → Option String
  | store fault => some fault.message
  | field fault => some fault.message
  | coercion fault => some fault.message
  | markup fault => some fault.message
  | file fault => some fault.message
  | json fault => some fault.message
  | _ => none

/-- The texts of an error and of what led to it. -/
def causes (error : Error) : List String := error.message :: error.cause?.toList

/-- Whether the error says that a type or a transformation is not known. -/
def isResolution : Error → Bool
  | typeNotFound _ _ => true
  | noTransformation _ _ => true
  | _ => false

end Error

end Remodel
