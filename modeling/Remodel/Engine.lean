import Remodel.Catalog
import Remodel.Definition.Bundle
import Remodel.Graph.Basic
import Remodel.Transform.Perform

/-!
# The engine

The types, the catalog of the descriptions in use, and the graph of all that were added.
What is saved through the engine goes into both; a pair of types has at most one
description in either.

## Strategy

Every operation changes the graph first, which says what went and what came, and then
brings the catalog in step.
-/

namespace Remodel

/-- The types, the descriptions in use, and the graph. -/
structure Engine where
  types : TypeTable
  catalog : Catalog
  graph : Graph
  deriving Inhabited

namespace Engine

/-- An engine without descriptions, whose assigned ids begin with `idStart`. -/
def new (types : TypeTable) (idStart : String) : Engine :=
  ⟨types, .empty, .empty idStart⟩

/-! ### Descriptions -/

/-- Saves a description as the only one of its pair, and gives its id. -/
def save (engine : Engine) (description : Description) : Engine × String :=
  let replacement := engine.graph.replace description
  ({ engine with
      graph := replacement.graph
      catalog := engine.catalog.save replacement.stored },
    replacement.id)

/-- Saves several descriptions, and gives their ids. -/
def saveAll (engine : Engine) : List Description → Engine × List String
  | [] => (engine, [])
  | description :: rest =>
    let (engine, id) := engine.save description
    let (engine, ids) := engine.saveAll rest
    (engine, id :: ids)

/-- The engine with another graph, from which descriptions were removed. -/
def afterRemoval (engine : Engine) (graph : Graph) (removed : List Description) : Engine :=
  { engine with graph, catalog := engine.catalog.deleteAllExact removed }

/-- Removes the descriptions of a pair that a description asks for, and says whether there
were any. -/
def delete (engine : Engine) (description : Description) : Engine × Bool :=
  let (graph, removed) := engine.graph.remove description
  (engine.afterRemoval graph removed, !removed.isEmpty)

/-- Removes the descriptions of a file, and counts them. -/
def dropFile (engine : Engine) (fileName : String) : Engine × Nat :=
  let (graph, removed) := engine.graph.dropFile fileName
  (engine.afterRemoval graph removed, removed.length)

/-- Replaces the descriptions of a file, and gives the ids of the new ones. -/
def exchangeFile (engine : Engine) (fileName : String) (descriptions : List Description) :
    Engine × List String :=
  let reloaded := engine.graph.rereadFile fileName descriptions
  let engine := engine.afterRemoval reloaded.graph reloaded.removed
  ({ engine with catalog := engine.catalog.saveAll reloaded.added },
    reloaded.added.filterMap Description.id)

/-! ### Definitions -/

/-- Saves the descriptions of a file, and counts them. -/
def addFile (engine : Engine) (files : FileTree) (path : String) :
    Attempt Error (Engine × Nat) := do
  let descriptions ← Definition.load engine.types files path
  return ((engine.saveAll descriptions).1, descriptions.length)

/-- Replaces the descriptions of a file by its present ones, and gives their ids. -/
def rereadFile (engine : Engine) (files : FileTree) (path : String) :
    Attempt Error (Engine × List String) := do
  return engine.exchangeFile path (← Definition.load engine.types files path)

/-- The engine with the descriptions of definition files instead of their earlier ones. -/
def replaceFiles (engine : Engine) (files : List Definition.LoadedFile) : Engine :=
  files.foldl (fun engine file => (engine.exchangeFile file.path file.descriptions).1) engine

/-- Replaces the descriptions of all definition files below a directory. -/
def loadDirectory (engine : Engine) (files : FileTree) (directory : String)
    (selection : Definition.Selection) : Attempt Error (Engine × Definition.Bundle) := do
  let bundle ← Definition.loadDirectory engine.types files directory selection
  return (engine.replaceFiles bundle.files, bundle)

/-! ### Types -/

/-- Activates a known type in the graph. -/
def activate (engine : Engine) (typeId : String) : Except Error Engine := do
  let descriptor ← engine.types.resolve typeId
  return { engine with graph := engine.graph.insertType descriptor.typeId }

/-- Deactivates a type in the graph. -/
def deactivate (engine : Engine) (typeId : String) : Traced Engine := do
  return { engine with graph := ← engine.graph.dropType typeId }

/-! ### Transforming -/

/-- Whether a pair of types has a description in use. -/
def canTransform (engine : Engine) (source target : String) : Bool :=
  engine.catalog.canTransform source target

/-- Makes a model of a type from one of another type by the description in use. -/
def perform (engine : Engine) (source target : String) (model : Model) :
    Attempt Error Model := do
  match engine.catalog.lookup? source target with
  | some description => description.transform engine.types model
  | none => throw (.noTransformation source target)

/-- Makes a model of a type from one of another type along an edge of the graph, the one
with the first of the ids if there are any. -/
def performAlong (engine : Engine) (source target : String) (ids : List String)
    (model : Model) : Attempt Error Model := do
  (← engine.graph.path source target ids).transform engine.types model

end Engine

end Remodel
