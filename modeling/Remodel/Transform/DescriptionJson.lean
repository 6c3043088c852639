import Remodel.Json.Decode
import Remodel.Transform.Description

/-!
# Transformation descriptions as JSON

A description has the members `source`, `target`, `id`, `file_name` and `steps`, a
step the members `operation`, `source_fields`, `target_field` and `params`.  What is
not set is left out.
-/

namespace Remodel

/-- Reads the name of an operation; an object whose only member has the name and holds
nothing stands for it too. -/
def Operation.read (draft : Draft) : Except JsonFault Operation :=
  match draft with
  | .object [] stop => .error (stop.getD .misshapen)
  | .object ((key, content) :: rest) stop => do
    let some name := key | throw .malformed
    let operation ← Draft.required (named? name)
    match content with
    | .null =>
      if !rest.isEmpty then throw .malformed
      match stop with
      | some fault => throw fault
      | none => return operation
    | other => throw other.mismatch
  | draft => do
    let name ← draft.readText
    Draft.required (named? name)

namespace Step

/-- The step as JSON. -/
def toJson (step : Step) : Json :=
  let target := match step.target with
    | some name => [("target_field", Json.string name)]
    | none => []
  .object ([ ("operation", .string step.operation.name),
      ("source_fields", .array (step.sources.map Json.string)) ] ++ target ++
    [("params", .object (step.params.map fun entry => (entry.1, .string entry.2)))])

/-- What has been read of a step. -/
structure Partial where
  operation : Option Operation := none
  sources : List String := []
  target : Option String := none
  params : List (String × String) := []

/-- Reads a step. -/
def read (draft : Draft) : Except JsonFault Step := do
  let fields : List (Draft.FieldReader Partial) :=
    [ ⟨"operation", false, fun state d => do
        return { state with operation := some (← Operation.read d) }⟩,
      ⟨"source_fields", true, fun state d => do
        return { state with sources := ← d.readList Draft.readText }⟩,
      ⟨"target_field", true, fun state d => do
        return { state with target := ← d.readOptionalText }⟩,
      ⟨"params", true, fun state d => do
        return { state with params := Table.ofList (← d.readTable Draft.readText) }⟩ ]
  let state ← draft.readFields fields {}
  return ⟨← Draft.required state.operation, state.sources, state.target, state.params⟩

end Step

namespace Description

/-- The description as JSON. -/
def toJson (description : Description) : Json :=
  let optional := fun (key : String) (value : Option String) =>
    match value with
    | some text => [(key, Json.string text)]
    | none => []
  .object ([("source", .string description.source), ("target", .string description.target)] ++
    optional "id" description.id ++ optional "file_name" description.fileName ++
    [("steps", .array (description.steps.map Step.toJson))])

/-- What has been read of a description. -/
structure Partial where
  source : Option String := none
  target : Option String := none
  id : Option String := none
  fileName : Option String := none
  steps : List Step := []

/-- Reads a description. -/
def read (draft : Draft) : Except JsonFault Description := do
  let fields : List (Draft.FieldReader Partial) :=
    [ ⟨"source", false, fun state d => do return { state with source := some (← d.readText) }⟩,
      ⟨"target", false, fun state d => do return { state with target := some (← d.readText) }⟩,
      ⟨"id", true, fun state d => do return { state with id := ← d.readOptionalText }⟩,
      ⟨"file_name", true, fun state d => do
        return { state with fileName := ← d.readOptionalText }⟩,
      ⟨"steps", true, fun state d => do return { state with steps := ← d.readList Step.read }⟩ ]
  let state ← draft.readFields fields {}
  return ⟨← Draft.required state.source, ← Draft.required state.target, state.id,
    state.fileName, state.steps⟩

/-- Reads a description from a text. -/
def parse (text : String) : Except JsonFault Description := Draft.readText? read text

end Description

end Remodel
