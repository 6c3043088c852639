import Remodel.Unicode.GeneralCategory
import Remodel.Unicode.Property
import Remodel.Unicode.Script
import Remodel.Text.Blank

/-!
# Named sets of characters

The sets that a pattern can name: the short classes of digits, blanks and word
characters, the ASCII classes in brackets, and the properties of characters.

## Strategy

Names of properties are compared in a normal form: lower case, without blanks,
underscores and hyphens, and without a leading `is`.
-/

namespace Remodel.Pattern

open Unicode

/-- Decimal digits of any script. -/
def digitSet : CodeSet := minorCategory 'N' 'd'

/-- The characters that count as white space. -/
def blankSet : CodeSet :=
  CodeSet.ofIntervals
    [ ⟨0x09, 0x0D⟩, ⟨0x20, 0x20⟩, ⟨0x85, 0x85⟩, ⟨0xA0, 0xA0⟩, ⟨0x1680, 0x1680⟩, ⟨0x2000, 0x200A⟩,
      ⟨0x2028, 0x2029⟩, ⟨0x202F, 0x202F⟩, ⟨0x205F, 0x205F⟩, ⟨0x3000, 0x3000⟩ ]

/-- Word characters: letters, marks, digits, connecting punctuation and joiners. -/
def wordSet : CodeSet :=
  CodeSet.ofIntervals
    (alphabetic.intervals ++ (majorCategory 'M').intervals ++ digitSet.intervals ++
      (minorCategory 'P' 'c').intervals ++ joinControl.intervals)

/-- ASCII digits. -/
def asciiDigitSet : CodeSet := CodeSet.range 0x30 0x39

/-- ASCII blanks. -/
def asciiBlankSet : CodeSet := CodeSet.ofIntervals [⟨0x09, 0x0D⟩, ⟨0x20, 0x20⟩]

/-- ASCII letters, digits and the underscore. -/
def asciiWordSet : CodeSet :=
  CodeSet.ofIntervals [⟨0x30, 0x39⟩, ⟨0x41, 0x5A⟩, ⟨0x5F, 0x5F⟩, ⟨0x61, 0x7A⟩]

/-- The ASCII classes that brackets can name. -/
def asciiClass? (name : String) : Option CodeSet :=
  let of := fun (intervals : List Interval) => some (CodeSet.ofIntervals intervals)
  if name = "alnum" then of [⟨0x30, 0x39⟩, ⟨0x41, 0x5A⟩, ⟨0x61, 0x7A⟩]
  else if name = "alpha" then of [⟨0x41, 0x5A⟩, ⟨0x61, 0x7A⟩]
  else if name = "ascii" then of [⟨0x00, 0x7F⟩]
  else if name = "blank" then of [⟨0x09, 0x09⟩, ⟨0x20, 0x20⟩]
  else if name = "cntrl" then of [⟨0x00, 0x1F⟩, ⟨0x7F, 0x7F⟩]
  else if name = "digit" then of [⟨0x30, 0x39⟩]
  else if name = "graph" then of [⟨0x21, 0x7E⟩]
  else if name = "lower" then of [⟨0x61, 0x7A⟩]
  else if name = "print" then of [⟨0x20, 0x7E⟩]
  else if name = "punct" then of [⟨0x21, 0x2F⟩, ⟨0x3A, 0x40⟩, ⟨0x5B, 0x60⟩, ⟨0x7B, 0x7E⟩]
  else if name = "space" then of [⟨0x09, 0x0D⟩, ⟨0x20, 0x20⟩]
  else if name = "upper" then of [⟨0x41, 0x5A⟩]
  else if name = "word" then some asciiWordSet
  else if name = "xdigit" then of [⟨0x30, 0x39⟩, ⟨0x41, 0x46⟩, ⟨0x61, 0x66⟩]
  else none

/-- The normal form of a name. -/
def normalName (name : List Char) : String :=
  let plain := (name.filter fun c => c ≠ ' ' && c ≠ '_' && c ≠ '-').map Char.toLower
  match plain with
  | ['i', 's', 'c'] => "isc"
  | 'i' :: 's' :: rest => String.ofList rest
  | _ => String.ofList plain

/-- The names of the classes of general categories, in normal form. -/
def majorNames : List (String × Char) :=
  [ ("l", 'L'), ("letter", 'L'), ("m", 'M'), ("mark", 'M'), ("combiningmark", 'M'),
    ("n", 'N'), ("number", 'N'), ("p", 'P'), ("punctuation", 'P'), ("punct", 'P'),
    ("s", 'S'), ("symbol", 'S'), ("z", 'Z'), ("separator", 'Z'), ("c", 'C'), ("other", 'C') ]

/-- The names of the general categories, in normal form. -/
def minorNames : List (String × Char × Char) :=
  [ ("lu", 'L', 'u'), ("uppercaseletter", 'L', 'u'), ("ll", 'L', 'l'),
    ("lowercaseletter", 'L', 'l'), ("lt", 'L', 't'), ("titlecaseletter", 'L', 't'),
    ("lm", 'L', 'm'), ("modifierletter", 'L', 'm'), ("lo", 'L', 'o'), ("otherletter", 'L', 'o'),
    ("mn", 'M', 'n'), ("nonspacingmark", 'M', 'n'), ("mc", 'M', 'c'), ("spacingmark", 'M', 'c'),
    ("me", 'M', 'e'), ("enclosingmark", 'M', 'e'), ("nd", 'N', 'd'), ("decimalnumber", 'N', 'd'),
    ("digit", 'N', 'd'), ("nl", 'N', 'l'), ("letternumber", 'N', 'l'), ("no", 'N', 'o'),
    ("othernumber", 'N', 'o'), ("pc", 'P', 'c'), ("connectorpunctuation", 'P', 'c'),
    ("pd", 'P', 'd'), ("dashpunctuation", 'P', 'd'), ("ps", 'P', 's'),
    ("openpunctuation", 'P', 's'), ("pe", 'P', 'e'), ("closepunctuation", 'P', 'e'),
    ("pi", 'P', 'i'), ("initialpunctuation", 'P', 'i'), ("pf", 'P', 'f'),
    ("finalpunctuation", 'P', 'f'), ("po", 'P', 'o'), ("otherpunctuation", 'P', 'o'),
    ("sm", 'S', 'm'), ("mathsymbol", 'S', 'm'), ("sc", 'S', 'c'), ("currencysymbol", 'S', 'c'),
    ("sk", 'S', 'k'), ("modifiersymbol", 'S', 'k'), ("so", 'S', 'o'), ("othersymbol", 'S', 'o'),
    ("zs", 'Z', 's'), ("spaceseparator", 'Z', 's'), ("zl", 'Z', 'l'), ("lineseparator", 'Z', 'l'),
    ("zp", 'Z', 'p'), ("paragraphseparator", 'Z', 'p'), ("cc", 'C', 'c'), ("control", 'C', 'c'),
    ("cntrl", 'C', 'c'), ("cf", 'C', 'f'), ("format", 'C', 'f'), ("cs", 'C', 's'),
    ("surrogate", 'C', 's'), ("co", 'C', 'o'), ("privateuse", 'C', 'o'), ("cn", 'C', 'n'),
    ("unassigned", 'C', 'n') ]

/-- The set of a general category by its name in normal form. -/
def category? (name : String) : Option CodeSet :=
  if name = "any" then some CodeSet.all
  else if name = "assigned" then some assigned
  else if name = "ascii" then some (CodeSet.range 0x00 0x7F)
  else if name = "lc" || name = "casedletter" then
    some (categorySet fun m n => m = 'L' && (n = 'u' || n = 'l' || n = 't'))
  else match majorNames.lookup name with
    | some major => some (majorCategory major)
    | none => (minorNames.lookup name).map fun (major, minor) => minorCategory major minor

/-- The set of a script by one of its names in normal form. -/
def script? (name : String) : Option CodeSet :=
  (scripts.find? fun script =>
    normalName script.1.toList = name || normalName script.2.1.toList = name).map fun script =>
      script.2.2

/-- The set of a binary property by its name in normal form. -/
def binary? (name : String) : Option CodeSet :=
  if name = "alphabetic" || name = "alpha" then some alphabetic
  else if name = "uppercase" || name = "upper" then some uppercase
  else if name = "lowercase" || name = "lower" then some lowercase
  else if name = "whitespace" || name = "wspace" || name = "space" then some blankSet
  else if name = "cased" then some cased
  else if name = "caseignorable" || name = "ci" then some caseIgnorable
  else if name = "joincontrol" || name = "joinc" then some joinControl
  else none

/-- The set that a name alone stands for. -/
def named? (name : List Char) : Option CodeSet :=
  let normal := normalName name
  (binary? normal).or ((category? normal).or (script? normal))

/-- The set of the characters whose property has a value. -/
def valued? (property value : List Char) : Option CodeSet :=
  let property := normalName property
  let value := normalName value
  if property = "gc" || property = "generalcategory" then category? value
  else if property = "sc" || property = "script" || property = "scx" ||
      property = "scriptextensions" then script? value
  else none

/-- The set between the braces of a property escape, which may be a name or a property
with a value. -/
def property? (text : List Char) : Option CodeSet :=
  match text.span (fun c => c ≠ '!' && c ≠ ':' && c ≠ '=') with
  | (name, []) => named? name
  | (name, '!' :: '=' :: value) => (valued? name value).map CodeSet.complement
  | (name, _ :: value) => valued? name value

end Remodel.Pattern
