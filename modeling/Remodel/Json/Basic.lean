import Remodel.Decimal.Layout
import Remodel.Table

/-!
# JSON values

Numbers, values and their text.  A number is whole when it was written without
point and exponent and fits 64 bits, and a double otherwise.

## Strategy

The members of an object are a list, so that a writer can choose their order.
`Json.objectOf` gives the order that reading produces: ascending keys, the last
of equal ones winning.
-/

namespace Remodel

/-- A JSON number. -/
inductive JsonNumber
  | whole (i : Int)
  | double (x : Float)
  deriving Repr, DecidableEq

/-- A JSON value. -/
inductive Json
  | null
  | bool (b : Bool)
  | number (n : JsonNumber)
  | string (s : String)
  | array (items : List Json)
  | object (members : List (String × Json))
  deriving Repr, Inhabited

namespace JsonNumber

/-- The double nearest to a whole number of at most 64 bits. -/
def floatOfWhole (i : Int) : Float :=
  if i < 0 then (Int64.ofInt i).toFloat else (UInt64.ofNat i.toNat).toFloat

/-- The number as a double. -/
def toFloat : JsonNumber → Float
  | .whole i => floatOfWhole i
  | .double x => x

/-- The number as a signed integer of 64 bits, if it is one. -/
def int64? : JsonNumber → Option Int64
  | .whole i => if Text.fitsInt64 i then some (Int64.ofInt i) else none
  | .double _ => none

/-- The number as a natural number, if it is one. -/
def natural? : JsonNumber → Option Nat
  | .whole i => if 0 ≤ i then some i.toNat else none
  | .double _ => none

/-- The text of a number. -/
def text : JsonNumber → String
  | .whole i => Text.ofInt i
  | .double x => Decimal.json.text x

end JsonNumber

namespace Json

/-- A whole number. -/
def ofInt (i : Int) : Json := .number (.whole i)

/-- A natural number. -/
def ofNat (n : Nat) : Json := .number (.whole n)

/-- A double; what is no number becomes `null`. -/
def ofFloat (x : Float) : Json :=
  match Decimal.magnitude x with
  | .finite _ => .number (.double x)
  | _ => .null

/-- An object with its members in ascending order of keys, the last of equal keys
winning. -/
def objectOf (members : List (String × Json)) : Json := .object (Table.ofList members)

/-- The member of an object with the given key. -/
def get? (json : Json) (key : String) : Option Json :=
  match json with
  | .object members => members.lookup key
  | _ => none

/-- The text of a string value. -/
def text? : Json → Option String
  | .string s => some s
  | _ => none

/-- The items of an array. -/
def items? : Json → Option (List Json)
  | .array items => some items
  | _ => none

/-- The members of an object. -/
def members? : Json → Option (List (String × Json))
  | .object members => some members
  | _ => none

/-- Two hexadecimal digits of a number below 256. -/
def hexPair (n : Nat) : List Char :=
  let digit := fun (d : Nat) => if d < 10 then Char.ofNat (48 + d) else Char.ofNat (87 + d)
  [digit (n / 16), digit (n % 16)]

/-- The characters that stand for a character inside a string. -/
def escapeChar (c : Char) : List Char :=
  if c = '"' then ['\\', '"']
  else if c = '\\' then ['\\', '\\']
  else if c = '\n' then ['\\', 'n']
  else if c = '\r' then ['\\', 'r']
  else if c = '\t' then ['\\', 't']
  else if c.toNat = 8 then ['\\', 'b']
  else if c.toNat = 12 then ['\\', 'f']
  else if c.toNat < 32 then ['\\', 'u', '0', '0'] ++ hexPair c.toNat
  else [c]

/-- A string in quotes. -/
def quote (s : String) : List Char :=
  '"' :: s.toList.flatMap escapeChar ++ ['"']

mutual

/-- A value without blanks between its parts. -/
def compactChars : Json → List Char
  | .null => ['n', 'u', 'l', 'l']
  | .bool true => ['t', 'r', 'u', 'e']
  | .bool false => ['f', 'a', 'l', 's', 'e']
  | .number n => n.text.toList
  | .string s => quote s
  | .array items => '[' :: compactItems items ++ [']']
  | .object members => '\x7b' :: compactMembers members ++ ['\x7d']

/-- Values with commas between them. -/
def compactItems : List Json → List Char
  | [] => []
  | [item] => compactChars item
  | item :: rest => compactChars item ++ ',' :: compactItems rest

/-- Members with commas between them. -/
def compactMembers : List (String × Json) → List Char
  | [] => []
  | [(key, value)] => quote key ++ ':' :: compactChars value
  | (key, value) :: rest =>
    quote key ++ ':' :: compactChars value ++ ',' :: compactMembers rest

end

/-- The value on one line, without blanks. -/
def compact (json : Json) : String := String.ofList json.compactChars

/-- A line break and the indentation of a level. -/
def lineBreak (level : Nat) : List Char := '\n' :: List.replicate (2 * level) ' '

mutual

/-- A value over several lines, at a level of indentation. -/
def prettyChars (level : Nat) : Json → List Char
  | .array [] => ['[', ']']
  | .array items => '[' :: prettyItems (level + 1) items ++ lineBreak level ++ [']']
  | .object [] => ['\x7b', '\x7d']
  | .object members => '\x7b' :: prettyMembers (level + 1) members ++ lineBreak level ++ ['\x7d']
  | .null => ['n', 'u', 'l', 'l']
  | .bool true => ['t', 'r', 'u', 'e']
  | .bool false => ['f', 'a', 'l', 's', 'e']
  | .number n => n.text.toList
  | .string s => quote s

/-- The items of an array, each on its own line. -/
def prettyItems (level : Nat) : List Json → List Char
  | [] => []
  | [item] => lineBreak level ++ prettyChars level item
  | item :: rest => lineBreak level ++ prettyChars level item ++ ',' :: prettyItems level rest

/-- The members of an object, each on its own line. -/
def prettyMembers (level : Nat) : List (String × Json) → List Char
  | [] => []
  | [(key, value)] => lineBreak level ++ quote key ++ ':' :: ' ' :: prettyChars level value
  | (key, value) :: rest =>
    lineBreak level ++ quote key ++ ':' :: ' ' :: prettyChars level value ++
      ',' :: prettyMembers level rest

end

/-- The value over several lines, two blanks for every level. -/
def pretty (json : Json) : String := String.ofList (json.prettyChars 0)

end Json

end Remodel
