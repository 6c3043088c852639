import Remodel.Decimal.Reading
import Remodel.Table
import Remodel.Text.Parts
import Remodel.Toml.Basic
import Remodel.Unicode.CaseMapping

/-!
# Layers of settings

Settings come in layers, later ones over earlier ones: tables are joined key by key, and
any other value replaces what was there.  The case of keys does not count.

## Strategy

A layer is a list of entries.  `mergeEntry` puts one value over what is there, and
recurses on that value.
-/

namespace Remodel.Config

/-- The entries of a table; any other value has none. -/
def entriesOf : Toml → List (String × Toml)
  | .table entries => entries
  | _ => []

mutual

/-- Puts a value over what is there under a key. -/
def mergeEntry (key : String) (below : List (String × Toml)) : Toml → List (String × Toml)
  | .table [] =>
    if (below.lookup key).isSome then below else Table.insert key (.table []) below
  | .table (entry :: rest) =>
    let there := ((below.lookup key).map entriesOf).getD []
    Table.insert key (.table (mergeAll there (entry :: rest))) below
  | value => Table.insert key value below

/-- Puts entries over what is there. -/
def mergeAll (below : List (String × Toml)) : List (String × Toml) → List (String × Toml)
  | [] => below
  | (key, value) :: rest => mergeAll (mergeEntry (Unicode.toLower key) below value) rest

end

/-- Puts a value over what is there under the keys of a path. -/
def mergePath (value : Toml) : List String → List (String × Toml) → List (String × Toml)
  | [], below => below
  | [key], below => mergeEntry (Unicode.toLower key) below value
  | key :: path, below =>
    let there := ((below.lookup key).map entriesOf).getD []
    Table.insert key (.table (mergePath value path there)) below

/-- Whether a text may stand between the dots of a path. -/
def isPathName (name : String) : Bool :=
  !name.isEmpty && name.toList.all fun c => c.isAlphanum || c = '_' || c = '-'

/-- The keys of a path with dots; any other text is a key by itself. -/
def pathOf (key : String) : List String :=
  let names := Text.parts "." key
  if names.all isPathName then names else [key]

/-- Puts the entries of a document over what is there. -/
def mergeDocument (below document : List (String × Toml)) : List (String × Toml) :=
  document.foldl (fun below entry => mergePath entry.2 (pathOf entry.1) below) below

/-! ### The environment -/

/-- How the names of variables with settings begin. -/
def variableStart : String := "bridge__"

/-- The key for which a variable has a value, if it is one for settings. -/
def variableKey? (name : String) : Option String :=
  let lower := Unicode.toLower name
  if variableStart.toList.isPrefixOf lower.toList then
    some (Text.replace "__" "." (String.ofList (lower.toList.drop variableStart.length)))
  else none

/-- The value that the text of a variable shows. -/
def variableValue (text : String) : Toml :=
  let lower := Unicode.toLower text
  if lower = "true" then .boolean true
  else if lower = "false" then .boolean false
  else
    match Text.int64? text, Decimal.read? text with
    | some i, _ => .integer i
    | none, some x => .float x
    | none, none => .string text

/-- Puts the settings of variables over what is there. -/
def mergeEnvironment (below : List (String × Toml)) (environment : List (String × String)) :
    List (String × Toml) :=
  environment.foldl (fun below entry =>
    match variableKey? entry.1 with
    | some key => mergePath (variableValue entry.2) (pathOf key) below
    | none => below) below

end Remodel.Config
