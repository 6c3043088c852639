import Remodel.Definition.Bundle
import Remodel.Graph.Basic
import Remodel.Record.Basic

/-!
# Configuration

Where types and definitions are found, how assigned ids begin, and for which connector
models are flattened.
-/

namespace Remodel

/-- The settings of the program. -/
structure Config where
  identity : Identity
  directories : List String
  extension : String
  skipped : List String
  idStart : String
  typesPath : Option String
  deriving Repr, DecidableEq, Inhabited

namespace Config

/-- The settings where nothing is configured. -/
def default : Config :=
  ⟨⟨"", "", ""⟩, [], Definition.defaultExtension, Definition.defaultSkipped,
    Graph.defaultIdStart, none⟩

/-- Which files are definitions. -/
def selection (config : Config) : Definition.Selection := ⟨config.extension, config.skipped⟩

/-- The directories with definitions, from a working directory on. -/
def directoryPaths (config : Config) (working : String) : List String :=
  config.directories.map (Path.join (working ++ "/"))

end Config

end Remodel
