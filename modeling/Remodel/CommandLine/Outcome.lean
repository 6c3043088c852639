import Remodel.CommandLine.Request
import Remodel.Config.Load
import Remodel.Engine
import Remodel.Graph.Dot
import Remodel.Model.ModelJson
import Remodel.Record.Flatten
import Remodel.Record.RecordJson
import Remodel.Text.Quoted

/-!
# Performing requests

What the program prints and leaves behind.  Everything it meets is a value: the files,
the environment, and the ids that are drawn for models without one.

## Strategy

An `Action` prints onto a `Console` and may fail; a failure is the list of texts from what
was being done down to what went wrong.  What was printed before a failure stays.
-/

namespace Remodel.CommandLine

/-- What a run of the program meets. -/
structure Surroundings where
  files : FileTree
  /-- The directory with the user's settings. -/
  settingsHome : Option String
  /-- The variables of the environment. -/
  environment : List (String × String)
  drawnId : Nat → String

/-- What has been printed, and the files as they are. -/
structure Console where
  output : String
  errors : String
  files : FileTree
  deriving Inhabited

/-- How a run of the program ended. -/
structure Outcome where
  code : Nat
  console : Console
  deriving Inhabited

/-- A part of a run; it fails with the texts of what was being done and what went wrong. -/
abbrev Action (α : Type) := ExceptT (List String) (StateM Console) α

namespace Action

/-- Prints a text. -/
def print (text : String) : Action Unit :=
  modify fun console => { console with output := console.output ++ text }

/-- Prints a line. -/
def printLine (text : String) : Action Unit := print (text ++ "\n")

/-- Prints a line about the run. -/
def report (text : String) : Action Unit :=
  modify fun console => { console with errors := console.errors ++ text ++ "\n" }

/-- The files as they are. -/
def files : Action FileTree := return (← get).files

/-- The value of a computation; a failure is told by its texts. -/
def orFail {ε α : Type} (texts : ε → List String) : Except ε α → Action α
  | .ok value => return value
  | .error fault => throw (texts fault)

/-- The value of a computation during something. -/
def during {α : Type} (activity : String) : Except Error α → Action α :=
  orFail fun error => activity :: error.causes

/-- The value of a computation. -/
def plainly {α : Type} : Except Error α → Action α := orFail Error.causes

end Action

open Remodel.CommandLine.Action

/-! ### What the commands need -/

/-- The types from the file that was named or else configured. -/
def loadTypes (config : Config) (path : Option String) : Action TypeTable := do
  match path <|> config.typesPath with
  | none => throw ["no type descriptors given; pass --types or set [types] path"]
  | some path =>
    let loaded := TypeTable.empty.insertFile (← files) path
    return (← during ("loading types from " ++ path) loaded).1

/-- Loads the definitions that a path names, and counts the descriptions.  A directory is
reported with its digest. -/
def loadPath (config : Config) (engine : Engine) (path : String) : Action (Engine × Nat) := do
  let activity := "loading definitions from " ++ path
  if (← files).isDirectory path then
    let loaded := engine.loadDirectory (← files) path config.selection
    let (engine, bundle) ← during activity loaded.result
    report ("📦 " ++ path ++ ": " ++ Text.ofNat bundle.files.length ++ " files, " ++
      Text.ofNat bundle.size ++ " descriptions (hash " ++
      String.ofList (bundle.hash.toList.take 12) ++ ")")
    return (engine, bundle.size)
  else during activity (engine.addFile (← files) path).result

/-- Loads the definitions that several paths name, and counts the descriptions. -/
def loadPaths (config : Config) (engine : Engine) : List String → Action (Engine × Nat)
  | [] => return (engine, 0)
  | path :: rest => do
    let (engine, count) ← loadPath config engine path
    let (engine, others) ← loadPaths config engine rest
    return (engine, count + others)

/-- An engine with the definitions of the paths, or else of the configured directories, and
the number of descriptions that were loaded. -/
def loadEngine (config : Config) (types : TypeTable) (paths : List String) :
    Action (Engine × Nat) := do
  let configured := config.directoryPaths (← files).workingPath
  let paths := if paths.isEmpty then configured else paths
  if paths.isEmpty then
    throw ["no definition files given and no [definitions] directories configured"]
  loadPaths config (Engine.new types config.idStart) paths

/-- The model of a type in a file of JSON text. -/
def loadModel (types : TypeTable) (typeId path : String) : Action Model := do
  let text ← orFail (fun fault => ["reading " ++ path, fault.message]) ((← files).readText path)
  let json ← orFail (fun fault => ["parsing " ++ path, fault.message]) (Json.parse text)
  plainly (json.toModel types typeId)

/-! ### Commands -/

/-- The line of a description that was checked. -/
def checkedLine (description : Description) : String :=
  let file := match description.fileName with
    | some name => ", " ++ name
    | none => ""
  "   " ++ description.display ++ " (" ++ Text.ofNat description.steps.length ++ " steps" ++
    file ++ ")"

/-- Checks definitions: lists the descriptions in use and counts all that were loaded. -/
def check (config : Config) (types : TypeTable) (paths : List String) : Action Unit := do
  let (engine, count) ← loadEngine config types paths
  engine.catalog.descriptions.forM fun description => printLine (checkedLine description)
  printLine ("✅ " ++ Text.ofNat count ++ " transformation descriptions are valid")

/-- Writes a text into a file. -/
def writeText (path text : String) : Action Unit := do
  let written := (← files).write path text.toUTF8.toList
  let files ← orFail (fun fault => ["writing " ++ path, fault.message]) written
  modify fun console => { console with files }

/-- Draws the graph of the transformations, into a file if one is named. -/
def draw (config : Config) (types : TypeTable) (paths : List String)
    (output : Option String) : Action Unit := do
  let graph := (← loadEngine config types paths).1.graph
  match output with
  | none => print graph.dot
  | some path =>
    writeText path graph.dot
    printLine ("✅ Exported graph (" ++ Text.ofNat graph.nodes.length ++ " types, " ++
      Text.ofNat graph.edges.length ++ " transformations) to: " ++ Text.quoted path)

/-- Flattens the model in a file and prints its records. -/
def flatten (config : Config) (types : TypeTable) (drawnId : Nat → String)
    (typeId input : String) : Action Unit := do
  let model ← loadModel types typeId input
  let flattened := (model.flatten ⟨config.identity, drawnId⟩).value
  printLine (Json.array (flattened.records.map Record.toJson)).pretty

/-- Transforms the model in a file and prints what it becomes. -/
def transform (config : Config) (types : TypeTable) (source target : String)
    (id : Option String) (input : String) (definitions : List String) : Action Unit := do
  let (engine, _) ← loadEngine config types definitions
  let model ← loadModel types source input
  let transformed := match id with
    | some id => engine.performAlong source target [id] model
    | none => engine.perform source target model
  printLine (← plainly transformed.result).toJson.pretty

/-- Performs a piece of work. -/
def perform (surroundings : Surroundings) (invocation : Invocation) : Action Unit := do
  let loaded := Config.load (← files) surroundings.settingsHome invocation.config
    surroundings.environment
  let config ← orFail (fun fault => ["loading configuration", fault.message]) loaded
  let types ← loadTypes config invocation.types
  match invocation.command with
  | .check paths => check config types paths
  | .graph paths output => draw config types paths output
  | .flatten typeId input => flatten config types surroundings.drawnId typeId input
  | .transform source target id input definitions =>
    transform config types source target id input definitions

/-! ### Runs -/

/-- The text for arguments that ask for nothing the program does. -/
def misuseText : String :=
  programShape.usage programName ++ "\n\nFor more information, try '--help'.\n"

/-- The outcome of a request. -/
def Request.outcome (surroundings : Surroundings) : Request → Outcome
  | .misuse => ⟨2, ⟨"", misuseText, surroundings.files⟩⟩
  | .help text => ⟨0, ⟨text, "", surroundings.files⟩⟩
  | .invoke invocation =>
    match (perform surroundings invocation).run ⟨"", "", surroundings.files⟩ with
    | (.ok _, console) => ⟨0, console⟩
    | (.error causes, console) =>
      let text := "❌ Error: " ++ Text.join ": " causes ++ "\n"
      ⟨1, { console with errors := console.errors ++ text }⟩

/-- Runs the program with arguments. -/
def run (surroundings : Surroundings) (arguments : List String) : Outcome :=
  (Request.ofArguments arguments).outcome surroundings

end Remodel.CommandLine
