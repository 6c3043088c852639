import Remodel.Decimal.Reading
import Remodel.Pattern.Search
import Remodel.Text.Blank
import Remodel.Text.Parts
import Remodel.Trace
import Remodel.Transform.PadDirection

/-!
# Operators on texts

What the operations do to texts, without any model: joining and splitting, ranges of
characters, padding, removing what a pattern matches, and reading scalars.

## Strategy

Positions count characters.  The functions that have laws are stated on lists of
characters; those on texts wrap them.
-/

namespace Remodel.Operators

/-- The texts joined by a separator. -/
def concat (texts : List String) (separator : String) : String := Text.join separator texts

/-- A part of a text between delimiters; the empty text if there are not so many, which
is reported. -/
def split (text delimiter : String) (index : Nat) : Traced String :=
  match (Text.parts delimiter text)[index]? with
  | some part => pure part
  | none => do
    Traced.note (.partMissing index delimiter)
    return ""

/-- Reads a pattern and compiles it. -/
def compilePattern (pattern : String) : Except StepFault Pattern.Program :=
  match Pattern.parse? pattern with
  | some tree => .ok tree.compile
  | none => .error (.invalidPattern pattern)

/-- The characters from one position up to another. -/
def sliceChars (text : List Char) (first last : Nat) : List Char :=
  (text.drop first).take (last - first)

/-- A match of a pattern in a text, counted from zero. -/
def splitRegex (text pattern : String) (index : Nat) : Except StepFault String := do
  let program ← compilePattern pattern
  let chars := text.toList
  match (program.matchesIn chars)[index]? with
  | some (first, last) => return String.ofList (sliceChars chars first last)
  | none => throw (.noMatch pattern index)

/-- The characters from one position up to another, which is moved back to the end of
the text if it lies behind it; that is reported. -/
def substring (text : String) (first last : Nat) : Attempt StepFault String := do
  let chars := text.toList
  let length := chars.length
  let stop ←
    if length < last then do
      Traced.note (.endClamped last length)
      pure length
    else pure last
  if stop < first then throw (.invalidRange first stop length)
  return String.ofList (sliceChars chars first stop)

/-- The characters in reverse order. -/
def reverse (text : String) : String := String.ofList text.toList.reverse

/-- The text filled up with a character to a length. -/
def padChars (text : List Char) (length : Nat) (character : Char) (direction : PadDirection) :
    List Char :=
  let fill := List.replicate (length - text.length) character
  match direction with
  | .start => fill ++ text
  | .end_ => text ++ fill

/-- The text filled up with a character to a length. -/
def pad (text : String) (length : Nat) (character : Char) (direction : PadDirection) : String :=
  String.ofList (padChars text.toList length character direction)

/-- The text without a match of a pattern at its front; with a limit, only so many
characters are searched. -/
def removeLeading (text pattern : String) (limit : Option Nat) : Except StepFault String := do
  let program ← compilePattern pattern
  let chars := text.toList
  let region := match limit with
    | some count => chars.take count
    | none => chars
  match program.leading? region with
  | some length => return String.ofList (chars.drop length)
  | none => return text

/-- Reads a text as a scalar of a named type; the name may be in any case. -/
def instantiate (text targetType : String) : Except StepFault Value :=
  let name := String.ofList (targetType.toList.map Char.toLower)
  let trimmed := Text.trim text
  let orFail := fun (value : Option Value) =>
    match value with
    | some v => Except.ok v
    | none => Except.error (StepFault.instantiation targetType text)
  if name = "string" then .ok (.string text)
  else if name = "integer" || name = "int" || name = "long" then
    orFail ((Text.int64? trimmed).map .integer)
  else if name = "float" || name = "double" then
    orFail ((Decimal.read? trimmed).map .float)
  else if name = "boolean" || name = "bool" then
    orFail ((Kind.boolean? trimmed).map .boolean)
  else .error (.invalidParameter (.unsupportedType targetType))

end Remodel.Operators
