/-!
# Shapes of commands

What a command takes from the command line: options, which are named and take a value
each, and words, which are known by their place.
-/

namespace Remodel.CommandLine

/-- An option. -/
structure OptionShape where
  long : String
  short : Option Char
  valueName : String
  about : String
  isRequired : Bool
  /-- Whether the value is a path, which is not empty. -/
  isPath : Bool
  /-- Whether the option may be given more than once. -/
  isRepeated : Bool
  deriving Repr, DecidableEq, Inhabited

/-- The words of a command, which are paths: exactly one, or any number. -/
structure WordShape where
  name : String
  about : String
  isRepeated : Bool
  deriving Repr, DecidableEq, Inhabited

/-- A command; one without words of its own is followed by a further command. -/
structure CommandShape where
  name : String
  about : String
  options : List OptionShape
  words : Option WordShape
  deriving Repr, DecidableEq, Inhabited

/-- The name of the option that asks for help. -/
def helpName : String := "help"

/-- The short name of the option that asks for help. -/
def helpLetter : Char := 'h'

end Remodel.CommandLine
