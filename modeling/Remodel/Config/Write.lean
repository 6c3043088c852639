import Remodel.Config.Basic
import Remodel.Toml.Quoted

/-!
# Writing settings

The settings as a TOML document, which can be loaded again.
-/

namespace Remodel.Config

/-- The line of a text. -/
def textLine (key value : String) : String := key ++ " = " ++ Toml.quote value ++ "\n"

/-- The lines of a list of texts; several texts stand on a line each. -/
def textsLines (key : String) (values : List String) : String :=
  let quoted := values.map Toml.quote
  let written :=
    if values.length ≤ 1 then "[" ++ Text.join "" quoted ++ "]"
    else "[\n" ++ Text.join "" (quoted.map fun text => "    " ++ text ++ ",\n") ++ "]"
  key ++ " = " ++ written ++ "\n"

/-- The settings as text. -/
def text (config : Config) : String :=
  Text.join "\n"
    [ "[identity]\n" ++ textLine "domain_id" config.identity.domainId ++
        textLine "connector_id" config.identity.connectorId ++
        textLine "instance_id" config.identity.instanceId,
      "[definitions]\n" ++ textsLines "directories" config.directories ++
        textLine "extension" config.extension ++ textsLines "skip_prefixes" config.skipped,
      "[graph]\n" ++ textLine "internal_prefix" config.idStart,
      "[types]\n" ++ Text.join "" (config.typesPath.toList.map (textLine "path")) ]

/-- Writes the settings into a file. -/
def save (config : Config) (files : FileTree) (path : String) : Except FileFault FileTree :=
  files.write path config.text.toUTF8.toList

end Remodel.Config
