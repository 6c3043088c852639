import Remodel.Model.Write
import Remodel.Transform.Description
import Remodel.Transform.Operators
import Remodel.Transform.Params
import Remodel.Types
import Remodel.Unicode.CaseMapping

/-!
# Performing transformations

A description is performed on a source model step by step.  A step reads fields of
the source or temporary fields, computes a value and writes it to a field of the
target or to a temporary field.  A step that fails is reported and skipped; only a
target type that cannot be instantiated ends the whole.

## Strategy

`TransformState` is all that a step can see or change.  `TransformState.perform` either gives
the next state or a fault, and `performAll` keeps the old one after a fault, so
that a failed step leaves no trace but its notice.
-/

namespace Remodel

/-- The state of a transformation: the source, the target so far, and the temporary
fields. -/
structure TransformState where
  source : Model
  target : Model
  temporary : List (String × Value)

namespace TransformState

/-- Reads a temporary field or a field of the source. -/
def read (state : TransformState) (field : String) : Except StepFault Value :=
  if isTemporary field then
    match state.temporary.lookup field with
    | some value => .ok value
    | none => .error (.missingTemporary field)
  else
    match state.source.descriptor.field? field with
    | none => .error (.field (.noSuchField state.source.typeId field))
    | some _ =>
      match state.source.get? field with
      | some value => .ok value
      | none => .error (.unsetSource field)

/-- Reads a field that must hold a text. -/
def readText (state : TransformState) (field : String) : Except StepFault String := do
  match ← state.read field with
  | .string s => return s
  | other => throw (.notText field other.kindText)

/-- The first source field of a step. -/
def leadingSource (step : Step) : Except StepFault String :=
  match step.sources with
  | field :: _ => .ok field
  | [] => .error .missingSource

/-- The value of a step's first source field. -/
def sourceValue (state : TransformState) (step : Step) : Except StepFault Value := do
  state.read (← leadingSource step)

/-- The text of a step's first source field. -/
def sourceText (state : TransformState) (step : Step) : Except StepFault String := do
  state.readText (← leadingSource step)

/-- Writes a temporary field as it is, or a field of the target after coercion to its
declared kind. -/
def write (state : TransformState) (field : String) (value : Value) :
    Except StepFault TransformState :=
  if isTemporary field then
    .ok { state with temporary := Table.insert field value state.temporary }
  else
    match state.target.descriptor.field? field with
    | none => .error (.field (.noSuchField state.target.typeId field))
    | some declared =>
      match declared.kind.coerce value with
      | .error fault => .error (.coercion fault)
      | .ok coerced =>
        match state.target.set field coerced with
        | .error fault => .error (.field fault)
        | .ok target => .ok { state with target }

/-- The parameter with the fill character of a pad step. -/
def padCharacter (params : Params) : Except StepFault Char :=
  match params.optional "character" with
  | none => .ok ' '
  | some text =>
    match text.toList with
    | c :: _ => .ok c
    | [] => .error (.invalidParameter .emptyPadCharacter)

/-- The parameter with the direction of a pad step. -/
def padDirection (params : Params) : Except StepFault PadDirection :=
  match params.optional "direction" with
  | none => .ok .start
  | some text => PadDirection.parse text

/-- The value that a step computes; nothing for a value step without a value. -/
def compute (state : TransformState) (step : Step) : Attempt StepFault (Option Value) := do
  let params : Params := step.params
  let text := fun (s : String) => some (Value.string s)
  match step.operation with
  | .forward => return some (← state.sourceValue step)
  | .concat =>
    let parts := step.sources.filterMap fun field =>
      match state.read field with
      | .ok value => some value.display
      | .error _ => none
    return text (Operators.concat parts ((params.optional "concat").getD ""))
  | .split =>
    let input ← state.sourceText step
    let delimiter ← params.required "split"
    let index ← params.indexOr "index" 0
    return text (← Operators.split input delimiter index)
  | .splitRegex =>
    let input ← state.sourceText step
    let pattern ← params.required "regex"
    let index ← params.indexOr "index" 0
    return text (← Operators.splitRegex input pattern index)
  | .map =>
    let value ← state.sourceValue step
    match params.optional value.display with
    | some mapped => return text mapped
    | none => return some value
  | .substring =>
    let input ← state.sourceText step
    let first ← params.indexOr "from" 0
    let last ← params.indexOr "to" input.length
    return text (← Operators.substring input first last)
  | .value =>
    match params.optional "value" with
    | some literal => return text literal
    | none =>
      Traced.note (.valueMissing step.display)
      return none
  | .length =>
    let value ← state.sourceValue step
    let function := (params.optional "lengthFunction").getD "length"
    match value.measure? function with
    | some n => return text (Text.ofNat n)
    | none =>
      Traced.note (.notMeasurable function value.kindText)
      return text "0"
  | .trim => return text (Text.trim (← state.sourceText step))
  | .toLower => return text (Unicode.toLower (← state.sourceText step))
  | .toUpper => return text (Unicode.toUpper (← state.sourceText step))
  | .replace =>
    let input ← state.sourceText step
    let old ← params.required "old"
    return text (Text.replace old ((params.optional "new").getD "") input)
  | .reverse => return text (Operators.reverse (← state.sourceText step))
  | .pad =>
    let input ← state.sourceText step
    let length ← params.requiredIndex "length"
    let character ← padCharacter params
    let direction ← padDirection params
    return text (Operators.pad input length character direction)
  | .removeLeading =>
    let input ← state.sourceText step
    let pattern ← params.required "regex"
    let limit ← params.indexOr "length" 0
    return text (← Operators.removeLeading input pattern (if limit = 0 then none else some limit))
  | .instantiate =>
    let input ← state.sourceText step
    let targetType ← params.required "targetType"
    return some (← Operators.instantiate input targetType)

/-- Performs a step. -/
def perform (state : TransformState) (step : Step) : Attempt StepFault TransformState := do
  match ← state.compute step with
  | none => return state
  | some value =>
    match step.target with
    | none => throw .missingTarget
    | some field => state.write field value

/-- Performs a step, or reports that it is skipped. -/
def performOrSkip (state : TransformState) (step : Step) : Traced TransformState := do
  match ← (state.perform step).run with
  | .ok next => return next
  | .error fault =>
    Traced.note (.skippedStep step.display fault)
    return state

/-- Performs steps one after another. -/
def performAll (state : TransformState) : List Step → Traced TransformState
  | [] => pure state
  | step :: rest => do
    let next ← state.performOrSkip step
    next.performAll rest

end TransformState

/-- Makes a model of the target type from a source model. -/
def Description.transform (types : TypeTable) (description : Description) (source : Model) :
    Attempt Error Model := do
  let target ← types.instantiate description.target
  if source.typeId ≠ description.source then
    Traced.note (.otherSourceType description.source source.typeId)
  let finished ← TransformState.performAll ⟨source, target, []⟩ description.steps
  return finished.target

end Remodel
