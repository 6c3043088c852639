import Remodel.CommandLine.Shape

/-!
# Reading arguments

The arguments of a command are options with their values, in any order, and words.  A
value is attached to its option or is the next argument.

## Strategy

`Token.ofArgument` says what an argument looks like.  `Given.read` then goes through the
arguments once; an option that waits for its value is part of the state.
-/

namespace Remodel.CommandLine

/-- What an argument looks like. -/
inductive Token
  | word (text : String)
  /-- Two dashes, behind which everything is a word. -/
  | separator
  | long (name : String) (value : Option String)
  | short (name : Char) (rest : List Char)
  deriving Repr, DecidableEq

/-- What an argument looks like; a dash by itself is a word. -/
def Token.ofArgument (argument : String) : Token :=
  match argument.toList with
  | ['-', '-'] => .separator
  | '-' :: '-' :: rest =>
    let name := rest.takeWhile (· ≠ '=')
    let value := (rest.drop name.length).tail?
    .long (String.ofList name) (value.map String.ofList)
  | '-' :: c :: rest => .short c rest
  | _ => .word argument

/-- Why arguments are not read to their end. -/
inductive Interruption
  /-- The user asks for help. -/
  | help
  /-- The arguments do not fit the command. -/
  | misuse
  deriving Repr, DecidableEq

/-- The options of a command in their order, by their long names, and its words. -/
structure Given where
  options : List (String × String)
  words : List String
  deriving Repr, DecidableEq, Inhabited

namespace Given

/-- Nothing. -/
def nothing : Given := ⟨[], []⟩

/-- The value of an option. -/
def value? (given : Given) (long : String) : Option String := given.options.lookup long

/-- All values of an option. -/
def values (given : Given) (long : String) : List String :=
  (given.options.filter (·.1 = long)).map Prod.snd

/-- Adds an option with its value. -/
def addOption (given : Given) (shape : OptionShape) (value : String) :
    Except Interruption Given :=
  let isSecond := !shape.isRepeated && (given.value? shape.long).isSome
  if isSecond || (shape.isPath && value.isEmpty) then .error .misuse
  else .ok { given with options := given.options ++ [(shape.long, value)] }

/-- Adds a word. -/
def addWord (given : Given) (shape : WordShape) (word : String) : Except Interruption Given :=
  let isSecond := !shape.isRepeated && !given.words.isEmpty
  if isSecond || word.isEmpty then .error .misuse
  else .ok { given with words := given.words ++ [word] }

/-- The value in what follows a short name, if anything follows. -/
def attachedValue? : List Char → Option String
  | [] => none
  | '=' :: rest => some (String.ofList rest)
  | rest => some (String.ofList rest)

/-- Reads arguments onto what was given before them, while an option may wait for its
value.  A command without words of its own leaves the first word and all behind it. -/
def readOnto (shape : CommandShape) (given : Given) (waiting : Option OptionShape) :
    List String → Except Interruption Given
  | [] => if waiting.isSome then .error .misuse else .ok given
  | argument :: rest =>
    match waiting, Token.ofArgument argument with
    | some option, .word text => do readOnto shape (← given.addOption option text) none rest
    | some _, _ => .error .misuse
    | none, .word text =>
      match shape.words with
      | some words => do readOnto shape (← given.addWord words text) none rest
      | none => .ok { given with words := argument :: rest }
    | none, .separator =>
      match shape.words with
      | some words => rest.foldlM (fun given word => given.addWord words word) given
      | none => .error .misuse
    | none, .long name value =>
      match shape.options.find? (·.long = name), value with
      | some option, some text => do readOnto shape (← given.addOption option text) none rest
      | some option, none => readOnto shape given (some option) rest
      | none, value => .error (if name = helpName && value.isNone then .help else .misuse)
    | none, .short letter attached =>
      match shape.options.find? (·.short = some letter), attachedValue? attached with
      | some option, some text => do readOnto shape (← given.addOption option text) none rest
      | some option, none => readOnto shape given (some option) rest
      | none, _ => .error (if letter = helpLetter then .help else .misuse)

/-- Reads the arguments of a command. -/
def read (shape : CommandShape) (arguments : List String) : Except Interruption Given :=
  readOnto shape nothing none arguments

end Given

end Remodel.CommandLine
