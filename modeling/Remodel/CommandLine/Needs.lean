import Remodel.CommandLine.Request
import Remodel.Config.Load

/-!
# What a request needs

The paths of all files that a request may read or write, so that they can be brought into
a tree before it is performed.
-/

namespace Remodel.CommandLine

namespace Invocation

/-- The paths where settings may be. -/
def settingsPaths (invocation : Invocation) (settingsHome : Option String) : List String :=
  let home := settingsHome.map Config.homePath
  (Config.usualPaths ++ home.toList ++ invocation.config.toList).flatMap fun path =>
    [path, path ++ "." ++ Config.settingsExtension]

/-- The paths of single files that are read. -/
def inputPaths (invocation : Invocation) (config : Config) : List String :=
  let input := match invocation.command with
    | .flatten _ input => [input]
    | .transform _ _ _ input _ => [input]
    | _ => []
  (invocation.types <|> config.typesPath).toList ++ input

/-- The paths of definition files and of directories with them. -/
def definitionPaths (invocation : Invocation) (config : Config) (working : String) :
    List String :=
  let orConfigured := fun (paths : List String) =>
    if paths.isEmpty then config.directoryPaths working else paths
  match invocation.command with
  | .check paths => orConfigured paths
  | .graph paths _ => orConfigured paths
  | .transform _ _ _ _ definitions => orConfigured definitions
  | .flatten _ _ => []

/-- The path of the file that is written. -/
def outputPath? (invocation : Invocation) : Option String :=
  match invocation.command with
  | .graph _ output => output
  | _ => none

end Invocation

end Remodel.CommandLine
