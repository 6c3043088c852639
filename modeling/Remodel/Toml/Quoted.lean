import Remodel.Codec.Hex
import Remodel.Text.Numeral

/-!
# Quoted texts in TOML

Four forms: with escapes between double quotes, and as they are between single quotes,
either on one line or, between triple quotes, over several lines.

## Strategy

A text with escapes is read in two steps: `spanBasic?` and `spanLines?` find its end, and
`unescape?` gives its meaning.  The writer prefers the forms without escapes.
-/

namespace Remodel.Toml

/-- Whether a character may stand in a text as it is. -/
def isPlain (c : Char) : Bool := c = '\t' || (32 ≤ c.toNat && c.toNat ≠ 127)

/-- Whether a character is a blank within a line. -/
def isSpace (c : Char) : Bool := c = ' ' || c = '\t'

/-- Whether a text begins with the end of a line. -/
def atLineEnd : List Char → Bool
  | '\n' :: _ => true
  | '\r' :: '\n' :: _ => true
  | _ => false

/-- The text without a line end at its front. -/
def dropLineEnd : List Char → List Char
  | '\n' :: rest => rest
  | '\r' :: '\n' :: rest => rest
  | text => text

/-! ### Reading -/

/-- The character whose number the hexadecimal digits spell. -/
def numbered? (digits : List Char) : Option Char := do
  let number ← digits.foldl (fun number c => do
    return 16 * (← number) + (← Codec.Hex.value? c)) (some 0)
  if number.isValidChar then return Char.ofNat number else none

/-- The character of an escape of one letter. -/
def escaped? (c : Char) : Option Char :=
  if c = 'b' then some '\x08'
  else if c = 't' then some '\t'
  else if c = 'n' then some '\n'
  else if c = 'f' then some '\x0c'
  else if c = 'r' then some '\r'
  else if c = '"' then some '"'
  else if c = '\\' then some '\\'
  else none

/-- The meaning of a text with escapes; line ends are allowed in texts of several lines. -/
def unescape? (lines : Bool) : List Char → Option (List Char)
  | [] => some []
  | '\\' :: 'u' :: a :: b :: c :: d :: rest => do
    return (← numbered? [a, b, c, d]) :: (← unescape? lines rest)
  | '\\' :: 'U' :: a :: b :: c :: d :: e :: f :: g :: h :: rest => do
    return (← numbered? [a, b, c, d, e, f, g, h]) :: (← unescape? lines rest)
  | '\\' :: c :: rest => do return (← escaped? c) :: (← unescape? lines rest)
  | '\r' :: '\n' :: rest =>
    if lines then (unescape? lines rest).map ('\n' :: ·) else none
  | c :: rest =>
    if (isPlain c && c ≠ '\\') || (lines && c = '\n') then
      (unescape? lines rest).map (c :: ·)
    else none

/-- The characters before the closing double quote, and what follows it. -/
def spanBasic? : List Char → Option (List Char × List Char)
  | [] => none
  | '"' :: rest => some ([], rest)
  | '\\' :: c :: rest => (spanBasic? rest).map fun split => ('\\' :: c :: split.1, split.2)
  | c :: rest => (spanBasic? rest).map fun split => (c :: split.1, split.2)

/-- The characters before three closing quotes, and what follows them; one or two quotes may
stand directly before these.  With `escapes`, a character behind a backslash is passed
over. -/
def spanLines? (quote : Char) (escapes : Bool) : List Char → Option (List Char × List Char)
  | [] => none
  | [_] => none
  | [_, _] => none
  | a :: b :: c :: rest =>
    if a = quote && b = quote && c = quote then
      match rest with
      | d :: e :: rest' =>
        if d = quote && e = quote then some ([quote, quote], rest')
        else if d = quote then some ([quote], e :: rest')
        else some ([], rest)
      | [d] => if d = quote then some ([quote], []) else some ([], rest)
      | [] => some ([], rest)
    else if escapes && a = '\\' then
      (spanLines? quote escapes (c :: rest)).map fun split => (a :: b :: split.1, split.2)
    else
      (spanLines? quote escapes (b :: c :: rest)).map fun split => (a :: split.1, split.2)

/-- Whether a text begins with blanks up to the end of a line. -/
def endsLine (text : List Char) : Bool := atLineEnd (text.dropWhile isSpace)

/-- Whether a character is a blank or part of a line end. -/
def isGap (c : Char) : Bool := isSpace c || c = '\n' || c = '\r'

/-- The text without every backslash at the end of a line, the line end, and all blanks and
line ends after it; `inGap` says that such a gap has begun. -/
def joinLines : Bool → List Char → List Char
  | _, [] => []
  | inGap, c :: rest =>
    if inGap && isGap c then joinLines true rest
    else if c = '\\' then
      if endsLine rest then joinLines true rest
      else
        match rest with
        | escaped :: rest => c :: escaped :: joinLines false rest
        | [] => [c]
    else c :: joinLines false rest

/-- The meaning of a text of several lines without escapes. -/
def plainLines? : List Char → Option (List Char)
  | [] => some []
  | '\r' :: '\n' :: rest => (plainLines? rest).map ('\n' :: ·)
  | c :: rest => if isPlain c || c = '\n' then (plainLines? rest).map (c :: ·) else none

/-- The text of a quoted text at the front, and what follows it. -/
def quoted? : List Char → Option (List Char × List Char)
  | '"' :: '"' :: '"' :: rest => do
    let (raw, rest) ← spanLines? '"' true (dropLineEnd rest)
    return (← unescape? true (joinLines false raw), rest)
  | '"' :: rest => do
    let (raw, rest) ← spanBasic? rest
    return (← unescape? false raw, rest)
  | '\'' :: '\'' :: '\'' :: rest => do
    let (raw, rest) ← spanLines? '\'' false (dropLineEnd rest)
    return (← plainLines? raw, rest)
  | '\'' :: rest =>
    let raw := rest.takeWhile (· ≠ '\'')
    match rest.dropWhile (· ≠ '\'') with
    | _ :: rest => if raw.all isPlain then some (raw, rest) else none
    | [] => none
  | _ => none

/-! ### Writing -/

/-- The longest run of a character in a text, after a run of the given length. -/
def longestRun (c : Char) (run : Nat) : List Char → Nat
  | [] => run
  | x :: rest => if x = c then longestRun c (run + 1) rest else max run (longestRun c 0 rest)

/-- Whether a character cannot stand in a text as it is, not even over several lines. -/
def needsEscape (c : Char) : Bool := !isPlain c && c ≠ '\n'

/-- The escape of a control character. -/
def controlEscape (c : Char) : List Char :=
  if c = '\x08' then ['\\', 'b']
  else if c = '\t' then ['\\', 't']
  else if c = '\n' then ['\\', 'n']
  else if c = '\x0c' then ['\\', 'f']
  else if c = '\r' then ['\\', 'r']
  else
    let digit := fun (n : Nat) => (Codec.Hex.digit n).toUpper
    ['\\', 'u', '0', '0', digit (c.toNat / 16), digit (c.toNat % 16)]

/-- The characters between double quotes; in a text of several lines, line ends stay and a
quote is escaped only after two others. -/
def escapeFrom (lines : Bool) (quotes : Nat) : List Char → List Char
  | [] => []
  | c :: rest =>
    if c = '"' then
      if lines && quotes < 2 then c :: escapeFrom lines (quotes + 1) rest
      else '\\' :: c :: escapeFrom lines 0 rest
    else if c = '\\' then '\\' :: c :: escapeFrom lines 0 rest
    else if lines && c = '\n' then c :: escapeFrom lines 0 rest
    else if c = '\t' || !isPlain c then controlEscape c ++ escapeFrom lines 0 rest
    else c :: escapeFrom lines 0 rest

/-- A text between quotes of one line. -/
def oneLine (quote : Char) (content : List Char) : List Char := quote :: content ++ [quote]

/-- A text between triple quotes; it begins on a line of its own if it has several lines. -/
def manyLines (quote : Char) (text content : List Char) : List Char :=
  let marks := List.replicate 3 quote
  marks ++ (if text.contains '\n' then ['\n'] else []) ++ content ++ marks

/-- A text as it is written: between double quotes if nothing is escaped then, else between
single quotes, else between triple quotes, and with escapes only if there is no other
way. -/
def quoteChars (text : List Char) : List Char :=
  let control := text.any needsEscape
  let backslash := text.contains '\\'
  let newline := text.contains '\n'
  let singles := longestRun '\'' 0 text
  let doubles := longestRun '"' 0 text
  if !control && !backslash && doubles = 0 && !newline then
    oneLine '"' (escapeFrom false 0 text)
  else if !control && singles = 0 && !newline then oneLine '\'' text
  else if !control && !backslash && doubles ≤ 2 then manyLines '"' text (escapeFrom true 0 text)
  else if !control && singles ≤ 2 then manyLines '\'' text text
  else if newline then manyLines '"' text (escapeFrom true 0 text)
  else oneLine '"' (escapeFrom false 0 text)

/-- A text as it is written. -/
def quote (text : String) : String := String.ofList (quoteChars text.toList)

end Remodel.Toml
