import Remodel.CommandLine.Shape
import Remodel.Text.Parts

/-!
# Help

The text that explains a command, computed from its shape.

## Strategy

A section is a heading and rows; in all rows of a section the explanations begin in the
same column.
-/

namespace Remodel.CommandLine

/-- A row: what is explained, and the explanation. -/
abbrev HelpRow := String × String

/-- A section under a heading; without rows there is none. -/
def helpSection (heading : String) (rows : List HelpRow) : List String :=
  let width := (rows.map fun row => row.1.length).foldl max 0
  let line := fun (row : HelpRow) =>
    let gap := List.replicate (width - row.1.length + 2) ' '
    "  " ++ row.1 ++ String.ofList gap ++ row.2
  if rows.isEmpty then [] else ["", heading ++ ":"] ++ rows.map line

namespace OptionShape

/-- An option with its value. -/
def usage (shape : OptionShape) : String := "--" ++ shape.long ++ " <" ++ shape.valueName ++ ">"

/-- The row of an option. -/
def row (shape : OptionShape) : HelpRow :=
  let letter := match shape.short with
    | some c => String.ofList ['-', c, ',', ' ']
    | none => "    "
  (letter ++ shape.usage, shape.about)

end OptionShape

/-- How the words of a command are written in its usage. -/
def WordShape.usage (shape : WordShape) : String :=
  if shape.isRepeated then "[" ++ shape.name ++ "]..." else "<" ++ shape.name ++ ">"

/-- The row of the option that asks for help. -/
def helpRow : HelpRow := ("-h, --help", "Print help")

namespace CommandShape

/-- How a command is called; its name is given with those of the commands around it. -/
def usage (shape : CommandShape) (fullName : String) : String :=
  let required := (shape.options.filter OptionShape.isRequired).map OptionShape.usage
  let optional := if shape.options.any (!·.isRequired) then ["[OPTIONS]"] else []
  let words := match shape.words with
    | some words => words.usage
    | none => "<COMMAND>"
  Text.join " " (["Usage:", fullName] ++ optional ++ required ++ [words])

/-- The text that explains a command and the commands that may follow it. -/
def help (shape : CommandShape) (fullName : String) (commands : List HelpRow) : String :=
  let words := shape.words.toList.map fun words => (words.usage, words.about)
  let options := shape.options.map OptionShape.row ++ [helpRow]
  Text.join "\n" ([shape.about, "", shape.usage fullName] ++ helpSection "Commands" commands ++
    helpSection "Arguments" words ++ helpSection "Options" options) ++ "\n"

end CommandShape

end Remodel.CommandLine
