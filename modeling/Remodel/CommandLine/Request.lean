import Remodel.CommandLine.Given
import Remodel.CommandLine.Help

/-!
# Requests

What the program can be asked to do: to check definitions, to draw the graph of the
transformations, to flatten a model, or to transform one.

## Strategy

Every command has a shape, which says how its arguments are read and what its help is.
A command is then made from what was given.
-/

namespace Remodel.CommandLine

/-- A piece of work. -/
inductive Command
  | check (paths : List String)
  | graph (paths : List String) (output : Option String)
  | flatten (typeId input : String)
  | transform (source target : String) (id : Option String) (input : String)
      (definitions : List String)
  deriving Repr, DecidableEq

/-- A piece of work, with the files of settings and types that were named for it. -/
structure Invocation where
  config : Option String
  types : Option String
  command : Command
  deriving Repr, DecidableEq

/-- What the arguments ask for. -/
inductive Request
  | invoke (invocation : Invocation)
  | help (text : String)
  | misuse
  deriving Repr, DecidableEq

/-! ### Shapes -/

/-- The name of the program. -/
def programName : String := "model-bridge"

/-- The options that stand before the command. -/
def programShape : CommandShape :=
  { name := programName
    about := "Convert models to records and between model types"
    words := none
    options :=
      [ ⟨"config", some 'c', "CONFIG", "Configuration file (defaults to bridge.toml lookup)",
          false, false, false⟩,
        ⟨"types", some 't', "TYPES", "JSON file with type descriptors (overrides [types] path)",
          false, true, false⟩ ] }

/-- The kinds of work. -/
inductive Task
  | check
  | graph
  | flatten
  | transform
  deriving Repr, DecidableEq

namespace Task

/-- All kinds of work. -/
def all : List Task := [check, graph, flatten, transform]

/-- What is said about the paths of definitions. -/
def definitionsAbout : String :=
  "Definition files or directories (defaults to configured directories)"

/-- The shape of the command for a kind of work. -/
def shape : Task → CommandShape
  | check =>
    { name := "check"
      about := "Parse definition files and summarise them"
      words := some ⟨"PATHS", definitionsAbout, true⟩
      options := [] }
  | graph =>
    { name := "graph"
      about := "Export the transformation graph in DOT format"
      words := some ⟨"PATHS", "", true⟩
      options :=
        [ ⟨"output", some 'o', "OUTPUT", "Output file (defaults to stdout)",
            false, true, false⟩ ] }
  | flatten =>
    { name := "flatten"
      about := "Flatten a JSON model into records"
      words := some ⟨"INPUT", "JSON file holding the model", false⟩
      options := [⟨"type", none, "TYPE_ID", "Type id of the model", true, false, false⟩] }
  | transform =>
    { name := "transform"
      about := "Transform a JSON model into another type"
      words := some ⟨"INPUT", "JSON file holding the source model", false⟩
      options :=
        [ ⟨"source", some 's', "SOURCE", "", true, false, false⟩,
          ⟨"target", some 'T', "TARGET", "", true, false, false⟩,
          ⟨"id", none, "ID", "Require the transformation with this id", false, false, false⟩,
          ⟨"definitions", some 'd', "DEFINITIONS", definitionsAbout, false, true, true⟩ ] }

/-- The kind of work that a command's name stands for. -/
def ofName? (name : String) : Option Task := all.find? (·.shape.name = name)

/-- The command that was given for a kind of work; none if something required is missing. -/
def command? (given : Given) : Task → Option Command
  | check => return .check given.words
  | graph => return .graph given.words (given.value? "output")
  | flatten => return .flatten (← given.value? "type") (← given.words.head?)
  | transform =>
    return .transform (← given.value? "source") (← given.value? "target") (given.value? "id")
      (← given.words.head?) (given.values "definitions")

end Task

/-- The shape of the command that explains the others. -/
def helpShape : CommandShape :=
  { name := helpName
    about := "Print this message or the help of the given subcommand(s)"
    words := some ⟨"COMMAND", "Print help for the subcommand(s)", true⟩
    options := [] }

/-! ### Help -/

/-- The help of the program. -/
def programHelp : String :=
  let rows := (Task.all.map Task.shape ++ [helpShape]).map fun shape => (shape.name, shape.about)
  programShape.help programName rows

/-- The help of the command for a kind of work. -/
def Task.help (task : Task) : String :=
  task.shape.help (programName ++ " " ++ task.shape.name) []

/-- The help of the command that explains the others, which has no options. -/
def helpHelp : String :=
  let words := helpShape.words.toList.map fun words => (words.usage, words.about)
  Text.join "\n" ([helpShape.about, "", helpShape.usage (programName ++ " " ++ helpName)] ++
    helpSection "Arguments" words) ++ "\n"

/-- What is explained for a list of names. -/
def explain : List String → Request
  | [] => .help programHelp
  | [name] =>
    if name = helpName then .help helpHelp
    else
      match Task.ofName? name with
      | some task => .help task.help
      | none => .misuse
  | _ => .misuse

/-! ### Reading -/

/-- Reads the arguments behind the name of a command. -/
def Request.ofTask (config types : Option String) (task : Task) (arguments : List String) :
    Request :=
  match Given.read task.shape arguments with
  | .error .help => .help task.help
  | .error .misuse => .misuse
  | .ok given =>
    match task.command? given with
    | some command => .invoke ⟨config, types, command⟩
    | none => .misuse

/-- What the arguments of the program ask for. -/
def Request.ofArguments (arguments : List String) : Request :=
  match Given.read programShape arguments with
  | .error .help => .help programHelp
  | .error .misuse => .misuse
  | .ok given =>
    match given.words with
    | [] => .misuse
    | name :: rest =>
      if name = helpName then explain rest
      else
        match Task.ofName? name with
        | some task => Request.ofTask (given.value? "config") (given.value? "types") task rest
        | none => .misuse

end Remodel.CommandLine
