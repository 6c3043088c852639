import Remodel.Json.Basic

/-!
# Reading JSON

A text is read into a `Draft`: its structure as far as it goes, with the fault at
the place where reading stopped.  What a reader of the draft rejects before that
place is reported first, so that a value of the wrong shape is told apart from a
text that breaks off later.

## Strategy

Reading the structure does not look into numbers and strings more than needed to
find their end.  A number out of range or a string with a stray half of a
surrogate pair is kept as a scalar without value: it is a fault only for a reader
that uses it.  `Draft.toJson` is the reader that uses everything.
-/

namespace Remodel

/-- Why a text is not the JSON that was asked for. -/
inductive JsonFault
  /-- The text is not JSON. -/
  | malformed
  /-- The text ends too early. -/
  | unfinished
  /-- The text is JSON of another shape. -/
  | misshapen
  deriving Repr, DecidableEq, Inhabited

/-- The structure of a text as far as it reads as JSON. -/
inductive Draft
  | null
  | bool (b : Bool)
  | number (value : Option JsonNumber)
  | string (value : Option String)
  /-- The items of an array, and what ended it if it was not its bracket. -/
  | array (items : List Draft) (stop : Option JsonFault)
  /-- The members of an object, and what ended it if it was not its brace. -/
  | object (members : List (Option String × Draft)) (stop : Option JsonFault)
  | broken (fault : JsonFault)
  deriving Repr, Inhabited

namespace Draft

/-- Drops blanks in front. -/
def skipBlanks : List Char → List Char
  | c :: rest => if c = ' ' || c = '\n' || c = '\t' || c = '\r' then skipBlanks rest else c :: rest
  | [] => []

/-- The value of four hexadecimal digits. -/
def hexValue (digits : List Char) : Option Nat :=
  digits.foldl
    (fun value c => value.bind fun v =>
      if '0' ≤ c ∧ c ≤ '9' then some (16 * v + (c.toNat - 48))
      else if 'a' ≤ c ∧ c ≤ 'f' then some (16 * v + (c.toNat - 87))
      else if 'A' ≤ c ∧ c ≤ 'F' then some (16 * v + (c.toNat - 55))
      else none)
    (some 0)

/-- A piece of a string: a character, or a code unit written by an escape. -/
inductive Piece
  | char (c : Char)
  | unit (n : Nat)
  deriving Repr

/-- The characters of a string's pieces; nothing if half of a surrogate pair stands
alone. -/
def joinPieces : List Piece → Option (List Char)
  | [] => some []
  | .char c :: rest => (joinPieces rest).map (c :: ·)
  | .unit high :: .unit low :: rest =>
    if 0xD800 ≤ high && high < 0xDC00 then
      if 0xDC00 ≤ low && low < 0xE000 then
        (joinPieces rest).map
          (Char.ofNat (0x10000 + (high - 0xD800) * 0x400 + (low - 0xDC00)) :: ·)
      else none
    else if 0xDC00 ≤ high && high < 0xE000 then none
    else (joinPieces (.unit low :: rest)).map (Char.ofNat high :: ·)
  | .unit n :: rest =>
    if 0xD800 ≤ n && n < 0xE000 then none
    else (joinPieces rest).map (Char.ofNat n :: ·)

/-- The character of an escape of one letter. -/
def shortEscape? (c : Char) : Option Char :=
  if c = '"' || c = '\\' || c = '/' then some c
  else if c = 'b' then some (Char.ofNat 8)
  else if c = 'f' then some (Char.ofNat 12)
  else if c = 'n' then some '\n'
  else if c = 'r' then some '\r'
  else if c = 't' then some '\t'
  else none

/-- The pieces of a string up to its closing quote, and the rest of the text. -/
def readPieces : List Char → Except JsonFault (List Piece × List Char)
  | [] => .error .unfinished
  | '"' :: rest => .ok ([], rest)
  | '\\' :: 'u' :: a :: b :: c :: d :: rest =>
    match hexValue [a, b, c, d] with
    | none => .error .malformed
    | some n => (readPieces rest).map fun (pieces, rest) => (.unit n :: pieces, rest)
  | '\\' :: c :: rest =>
    if c = 'u' then .error .unfinished
    else match shortEscape? c with
      | none => .error .malformed
      | some e => (readPieces rest).map fun (pieces, rest) => (.char e :: pieces, rest)
  | c :: rest =>
    if c = '\\' then .error .unfinished
    else if c.toNat < 32 then .error .malformed
    else (readPieces rest).map fun (pieces, rest) => (.char c :: pieces, rest)

/-- Reads a string after its opening quote. -/
def readString (text : List Char) : Except JsonFault (Option String × List Char) :=
  (readPieces text).map fun (pieces, rest) => ((joinPieces pieces).map String.ofList, rest)

/-- The longest run of digits at the front, and the rest. -/
def spanDigits (text : List Char) : List Char × List Char :=
  text.span fun c => '0' ≤ c && c ≤ '9'

/-- The power of ten with an exponent from 0 to 308, as a double. -/
def powerOfTen (n : Nat) : Float := Float.ofScientific 1 false n

/-- Scales a significand by a power of ten, in steps of 308 places downwards.  The
result is rounded at every step; nothing if it is out of range. -/
def scale (x : Float) (exponent : Int) : Nat → Option Float
  | 0 => none
  | fuel + 1 =>
    if exponent.natAbs ≤ 308 then
      if 0 ≤ exponent then
        let scaled := x * powerOfTen exponent.natAbs
        if scaled.isInf then none else some scaled
      else some (x / powerOfTen exponent.natAbs)
    else if x == 0 then some x
    else if 0 ≤ exponent then none
    else scale (x / powerOfTen 308) (exponent + 308) fuel

/-- The double of a significand of 64 bits and a power of ten. -/
def doubleOf (negative : Bool) (significand : Nat) (exponent : Int) : Option JsonNumber :=
  let x := (UInt64.ofNat significand).toFloat
  -- after four steps every significand of 64 bits has become zero
  let clamped := if exponent < -2000 then -2000 else exponent
  (scale x clamped 8).map fun y => .double (if negative then -y else y)

/-- Collects digits into a significand of 64 bits; `kept` and `dropped` count the
digits that went in and those that no longer fit. -/
def collect (significand : Nat) : List Char → Nat × Nat × Nat
  | [] => (significand, 0, 0)
  | c :: rest =>
    let next := significand * 10 + (c.toNat - 48)
    if next < Text.wordBound then
      let (s, kept, dropped) := collect next rest
      (s, kept + 1, dropped)
    else (significand, 0, rest.length + 1)

/-- A number from its sign, whole digits, fraction digits and exponent. -/
def numberOf (negative : Bool) (whole : List Char) (fraction : Option (List Char))
    (exponent : Option Int) : Option JsonNumber :=
  let (significand, _, dropped) := collect 0 whole
  match fraction, exponent with
  | none, none =>
    if dropped = 0 then
      if !negative then some (.whole significand)
      else if significand = 0 || 0x8000000000000000 < significand then
        some (.double (-(UInt64.ofNat significand).toFloat))
      else some (.whole (-(significand : Int)))
    else doubleOf negative significand dropped
  | _, _ =>
    let (significand, kept, _) := collect significand (fraction.getD [])
    let written := exponent.getD 0
    if 0x80000000 ≤ written.natAbs then
      if significand ≠ 0 && 0 < written then none
      else some (.double (if negative then -0.0 else 0.0))
    else doubleOf negative significand ((dropped : Int) - kept + written)

/-- A digit is missing: the text ends here, or something else stands here. -/
def missingDigit (rest : List Char) : JsonFault :=
  if rest.isEmpty then .unfinished else .malformed

/-- Reads an exponent after its mark. -/
def readExponent (text : List Char) : Except JsonFault (Int × List Char) :=
  let (negative, text) := match text with
    | '-' :: rest => (true, rest)
    | '+' :: rest => (false, rest)
    | _ => (false, text)
  let (digits, rest) := spanDigits text
  match Text.natural? digits with
  | none => .error (missingDigit rest)
  | some n => .ok (if negative then -(n : Int) else n, rest)

/-- Reads a number after its sign. -/
def readNumber (negative : Bool) (text : List Char) :
    Except JsonFault (Option JsonNumber × List Char) := do
  let (whole, rest) := spanDigits text
  if whole.isEmpty then throw (missingDigit rest)
  if whole.head? = some '0' && 1 < whole.length then throw .malformed
  let (fraction, rest) ← match rest with
    | '.' :: rest =>
      let (digits, rest) := spanDigits rest
      if digits.isEmpty then throw (missingDigit rest) else pure (some digits, rest)
    | _ => pure (none, rest)
  match rest with
  | mark :: tail =>
    if mark = 'e' || mark = 'E' then
      let (exponent, rest) ← readExponent tail
      return (numberOf negative whole fraction (some exponent), rest)
    else return (numberOf negative whole fraction none, rest)
  | [] => return (numberOf negative whole fraction none, rest)

/-- Reads the rest of a word such as `true`. -/
def readWord (value : Draft) : List Char → List Char → Draft × Option (List Char)
  | [], text => (value, some text)
  | _ :: _, [] => (.broken .unfinished, none)
  | w :: word, c :: text =>
    if w = c then readWord value word text else (.broken .malformed, none)

/-- A scalar with the rest of the text, or the fault. -/
def scalar {α : Type} (make : α → Draft) :
    Except JsonFault (α × List Char) → Draft × Option (List Char)
  | .ok (value, rest) => (make value, some rest)
  | .error fault => (.broken fault, none)

mutual

/-- Reads a value; the rest of the text is missing where reading stopped. -/
def readValue : Nat → List Char → Draft × Option (List Char)
  | 0, _ => (.broken .unfinished, none)
  | fuel + 1, text =>
    match skipBlanks text with
    | [] => (.broken .unfinished, none)
    | '"' :: rest => scalar Draft.string (readString rest)
    | '[' :: rest =>
      match skipBlanks rest with
      | ']' :: rest => (.array [] none, some rest)
      | _ =>
        let (items, stop, rest) := readItems fuel rest
        (.array items stop, rest)
    | '\x7b' :: rest =>
      match skipBlanks rest with
      | '\x7d' :: rest => (.object [] none, some rest)
      | _ =>
        let (members, stop, rest) := readMembers fuel rest
        (.object members stop, rest)
    | 'n' :: rest => readWord .null ['u', 'l', 'l'] rest
    | 't' :: rest => readWord (.bool true) ['r', 'u', 'e'] rest
    | 'f' :: rest => readWord (.bool false) ['a', 'l', 's', 'e'] rest
    | '-' :: rest => scalar Draft.number (readNumber true rest)
    | c :: rest =>
      if '0' ≤ c && c ≤ '9' then scalar Draft.number (readNumber false (c :: rest))
      else (.broken .malformed, none)

/-- Reads the items of an array from an item on. -/
def readItems : Nat → List Char → List Draft × Option JsonFault × Option (List Char)
  | 0, _ => ([], some .unfinished, none)
  | fuel + 1, text =>
    let (item, rest) := readValue fuel text
    match rest with
    | none => ([item], none, none)
    | some rest =>
      match skipBlanks rest with
      | [] => ([item], some .unfinished, none)
      | ']' :: rest => ([item], none, some rest)
      | ',' :: rest =>
        match skipBlanks rest with
        | [] => ([item], some .unfinished, none)
        | ']' :: _ => ([item], some .malformed, none)
        | _ =>
          let (items, stop, rest) := readItems fuel rest
          (item :: items, stop, rest)
      | _ => ([item], some .malformed, none)

/-- Reads the members of an object from a key on. -/
def readMembers :
    Nat → List Char → List (Option String × Draft) × Option JsonFault × Option (List Char)
  | 0, _ => ([], some .unfinished, none)
  | fuel + 1, text =>
    match skipBlanks text with
    | [] => ([], some .unfinished, none)
    | '"' :: rest =>
      match readString rest with
      | .error fault => ([], some fault, none)
      | .ok (key, rest) =>
        match skipBlanks rest with
        | [] => ([(key, .broken .unfinished)], none, none)
        | ':' :: rest =>
          let (value, rest) := readValue fuel rest
          match rest with
          | none => ([(key, value)], none, none)
          | some rest =>
            match skipBlanks rest with
            | [] => ([(key, value)], some .unfinished, none)
            | '\x7d' :: rest => ([(key, value)], none, some rest)
            | ',' :: rest =>
              let (members, stop, rest) := readMembers fuel rest
              ((key, value) :: members, stop, rest)
            | _ => ([(key, value)], some .malformed, none)
        | _ => ([(key, .broken .malformed)], none, none)
    | _ => ([], some .malformed, none)

end

/-- Reads a whole text: the draft of its value, and the fault of what follows it. -/
def ofText (text : String) : Draft × Option JsonFault :=
  let chars := text.toList
  match readValue (chars.length + 1) chars with
  | (draft, none) => (draft, none)
  | (draft, some rest) =>
    (draft, if (skipBlanks rest).isEmpty then none else some .malformed)

/-- The deepest nesting that is read. -/
def maxDepth : Nat := 127

mutual

/-- The value of a draft in which every part is used; `depth` levels of nesting are
left. -/
def toJsonWithin (depth : Nat) : Draft → Except JsonFault Json
  | .null => .ok .null
  | .bool b => .ok (.bool b)
  | .number (some n) => .ok (.number n)
  | .number none => .error .malformed
  | .string (some s) => .ok (.string s)
  | .string none => .error .malformed
  | .array items stop =>
    if depth = 0 then .error .malformed
    else do
      let values ← itemsToJson (depth - 1) items
      match stop with
      | some fault => throw fault
      | none => return .array values
  | .object members stop =>
    if depth = 0 then .error .malformed
    else do
      let values ← membersToJson (depth - 1) members
      match stop with
      | some fault => throw fault
      | none => return Json.objectOf values
  | .broken fault => .error fault

/-- The values of an array's items. -/
def itemsToJson (depth : Nat) : List Draft → Except JsonFault (List Json)
  | [] => .ok []
  | item :: rest => do
    let value ← toJsonWithin depth item
    return value :: (← itemsToJson depth rest)

/-- The values of an object's members. -/
def membersToJson (depth : Nat) :
    List (Option String × Draft) → Except JsonFault (List (String × Json))
  | [] => .ok []
  | (none, _) :: _ => .error .malformed
  | (some key, value) :: rest => do
    let value ← toJsonWithin depth value
    return (key, value) :: (← membersToJson depth rest)

end

/-- The value of a draft in which every part is used. -/
def toJson (draft : Draft) : Except JsonFault Json := toJsonWithin maxDepth draft

mutual

/-- The fault of a draft that is passed over: only its structure counts. -/
def fault? : Draft → Option JsonFault
  | .array items stop => (faultOfItems items).or stop
  | .object members stop => (faultOfMembers members).or stop
  | .broken fault => some fault
  | _ => none

/-- The first fault among items that are passed over. -/
def faultOfItems : List Draft → Option JsonFault
  | [] => none
  | item :: rest => (fault? item).or (faultOfItems rest)

/-- The first fault among members that are passed over. -/
def faultOfMembers : List (Option String × Draft) → Option JsonFault
  | [] => none
  | (_, value) :: rest => (fault? value).or (faultOfMembers rest)

end

end Draft

namespace Json

/-- Reads a text as one JSON value. -/
def parse (text : String) : Except JsonFault Json := do
  let (draft, trailing) := Draft.ofText text
  let value ← draft.toJson
  match trailing with
  | some fault => throw fault
  | none => return value

end Json

end Remodel
