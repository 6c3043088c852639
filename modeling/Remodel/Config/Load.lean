import Remodel.Config.Basic
import Remodel.Config.Layers
import Remodel.Toml.Document

/-!
# Loading settings

Settings come from files in several places and from the environment.  A scalar of any
kind may stand for a text.

## Strategy

The sources are merged first, in their order; then the settings are read from the one
table that results.
-/

namespace Remodel.Config

/-- Why there are no settings. -/
inductive Fault
  /-- There is no file that the path names. -/
  | missing (path : String)
  /-- The file's extension is none of a settings file. -/
  | unknownFormat (path : String)
  | file (fault : FileFault)
  /-- The text is no document, or a setting is of the wrong kind. -/
  | malformed
  deriving Repr, DecidableEq

/-- The text of a fault of settings. -/
def Fault.message : Fault → String
  | missing path => "configuration file \"" ++ path ++ "\" not found"
  | unknownFormat path =>
    "configuration file \"" ++ path ++ "\" is not of a registered file format"
  | file fault => fault.message
  | malformed => "the settings are malformed"

/-- The files in the working directory that are looked for, later ones over earlier. -/
def usualPaths : List String := ["bridge.toml", ".bridge.toml", "config/bridge.toml"]

/-- The file in the directory of the user's settings. -/
def homePath (settingsHome : String) : String := Path.join settingsHome "bridge/bridge.toml"

/-- The extension of files with settings. -/
def settingsExtension : String := "toml"

/-- The file that a configuration path names: itself, or with the extension added. -/
def sourcePath (files : FileTree) (path : String) : Except Fault String :=
  let extended := path ++ "." ++ settingsExtension
  if files.isFile path then
    if Path.extension? path = some settingsExtension then .ok path
    else .error (.unknownFormat (Path.join (files.workingPath ++ "/") path))
  else if files.isFile extended then .ok extended
  else .error (.missing path)

/-- The text of the file that a configuration path names. -/
def sourceText (files : FileTree) (path : String) : Except Fault String := do
  (files.readText (← sourcePath files path)).mapError .file

/-- Puts the settings of a file over what is there; a file that cannot be read is passed
over unless it is required. -/
def mergeFile (files : FileTree) (required : Bool) (below : List (String × Toml))
    (path : String) : Except Fault (List (String × Toml)) :=
  match sourceText files path with
  | .error fault => if required then .error fault else .ok below
  | .ok text =>
    match TomlDocument.parse? text with
    | some document => .ok (mergeDocument below document)
    | none => .error .malformed

/-! ### Reading the table -/

/-- The value of a field of a structure, which is a table or lists its fields in order. -/
def field? (key : String) (index : Nat) : Toml → Option (Option Toml)
  | .table entries => some (entries.lookup key)
  | .array items => some items[index]?
  | _ => none

/-- Reads a field that holds a text. -/
def textField (key : String) (index : Nat) (default : String) (value : Toml) :
    Option String := do
  match ← field? key index value with
  | some text => text.scalarText?
  | none => return default

/-- Reads a field that holds a list of texts. -/
def textsField (key : String) (index : Nat) (default : List String) (value : Toml) :
    Option (List String) := do
  match ← field? key index value with
  | some texts => (← texts.items?).mapM Toml.scalarText?
  | none => return default

/-- Reads a field that may hold a text. -/
def optionalField (key : String) (index : Nat) (value : Toml) : Option (Option String) := do
  match ← field? key index value with
  | some text => (text.scalarText?).map some
  | none => return none

/-- Reads the settings from the merged table. -/
def ofEntries? (entries : List (String × Toml)) : Option Config := do
  let part := fun (key : String) => (entries.lookup key).getD (.table [])
  let identity := part "identity"
  let definitions := part "definitions"
  return {
    identity :=
      ⟨← textField "domain_id" 0 default.identity.domainId identity,
        ← textField "connector_id" 1 default.identity.connectorId identity,
        ← textField "instance_id" 2 default.identity.instanceId identity⟩
    directories := ← textsField "directories" 0 default.directories definitions
    extension := ← textField "extension" 1 default.extension definitions
    skipped := ← textsField "skip_prefixes" 2 default.skipped definitions
    idStart := ← textField "internal_prefix" 0 default.idStart (part "graph")
    typesPath := ← optionalField "path" 0 (part "types") }

/-- Loads the settings: from the usual files, from the one in the directory of the user's
settings, from the one that is asked for, and from the environment. -/
def load (files : FileTree) (settingsHome path : Option String)
    (environment : List (String × String)) : Except Fault Config := do
  let entries ← (usualPaths ++ (settingsHome.map homePath).toList).foldlM (mergeFile files false) []
  let entries ← path.toList.foldlM (mergeFile files true) entries
  match ofEntries? (mergeEnvironment entries environment) with
  | some config => return config
  | none => throw .malformed

end Remodel.Config
