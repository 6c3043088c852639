import Remodel.Pattern.Basic
import Remodel.Pattern.Property
import Remodel.Text.Numeral
import Remodel.Unicode.CaseFolding

/-!
# Reading patterns

The text of a regular expression is read into a `Pattern`.  There are no references
to groups and no conditions on text before or after a match, so that every pattern
can be searched for in linear time.

## Strategy

Brackets and groups nest, and each is read by a function that recurses with less
fuel for what is inside it and for what follows it; the length of the text is enough
fuel.  What fails to be read gives no pattern at all, without a reason.
-/

namespace Remodel.Pattern

open Unicode

/-- The settings that change how a pattern is read; they last to the end of a group. -/
structure Flags where
  ignoreCase : Bool := false
  multiLine : Bool := false
  dotAll : Bool := false
  swapGreed : Bool := false
  unicode : Bool := true
  anyLineBreak : Bool := false
  freeSpacing : Bool := false

/-- The letters of the settings. -/
def flagLetters : List Char := ['i', 'm', 's', 'U', 'u', 'R', 'x']

/-- The settings with one of them switched. -/
def Flags.switch (flags : Flags) (letter : Char) (on : Bool) : Flags :=
  if letter = 'i' then { flags with ignoreCase := on }
  else if letter = 'm' then { flags with multiLine := on }
  else if letter = 's' then { flags with dotAll := on }
  else if letter = 'U' then { flags with swapGreed := on }
  else if letter = 'u' then { flags with unicode := on }
  else if letter = 'R' then { flags with anyLineBreak := on }
  else if letter = 'x' then { flags with freeSpacing := on }
  else flags

/-- Drops blanks and comments where they have no meaning. -/
def dropSpacing (inComment : Bool) : List Char → List Char
  | [] => []
  | c :: rest =>
    if inComment then dropSpacing (c ≠ '\n') rest
    else if Text.isBlank c then dropSpacing false rest
    else if c = '#' then dropSpacing true rest
    else c :: rest

/-- The text without what has no meaning at its front. -/
def Flags.skip (flags : Flags) (text : List Char) : List Char :=
  if flags.freeSpacing then dropSpacing false text else text

/-- What an escape stands for. -/
inductive Escape
  /-- A character by itself; a byte is one written by two hexadecimal digits. -/
  | literal (code : Nat) (byte : Bool)
  | set (set : CodeSet)
  | look (condition : Look)

/-- Whether a punctuation mark has a meaning in patterns or may get one. -/
def isEscapable (c : Char) : Bool :=
  c.toNat < 0x80 && !c.isAlphanum && c ≠ '<' && c ≠ '>'

/-- The value of hexadecimal digits. -/
def hexNumber? : List Char → Option Nat
  | [] => none
  | digits => digits.foldl
    (fun value c => value.bind fun v =>
      if '0' ≤ c ∧ c ≤ '9' then some (16 * v + (c.toNat - 48))
      else if 'a' ≤ c ∧ c ≤ 'f' then some (16 * v + (c.toNat - 87))
      else if 'A' ≤ c ∧ c ≤ 'F' then some (16 * v + (c.toNat - 55))
      else none)
    (some 0)

/-- A number that is a character. -/
def scalarCode? (n : Nat) : Option Nat :=
  if n < 0xD800 || (0xE000 ≤ n && n ≤ maxCodePoint) then some n else none

/-- Reads what stands between braces, after the opening one. -/
def upToBrace (text : List Char) : Option (List Char × List Char) :=
  match text.span (· ≠ '\x7d') with
  | (inside, _ :: rest) => some (inside, rest)
  | _ => none

/-- Reads a character given by hexadecimal digits: so many, or any number in braces. -/
def readHex (count : Nat) (text : List Char) : Option (Escape × List Char) :=
  match text with
  | '\x7b' :: rest => do
    let (digits, rest) ← upToBrace rest
    let code ← (hexNumber? digits).bind scalarCode?
    return (.literal code false, rest)
  | _ =>
    if text.length < count then none
    else do
      let code ← (hexNumber? (text.take count)).bind scalarCode?
      return (.literal code (count = 2), text.drop count)

/-- Reads the name of a property: one letter, or a name in braces. -/
def readProperty (flags : Flags) (negated : Bool) (text : List Char) :
    Option (Escape × List Char) := do
  if !flags.unicode then none
  let (name, rest) ← match text with
    | '\x7b' :: rest => upToBrace rest
    | c :: rest => some ([c], rest)
    | [] => none
  let set ← property? name
  let set := if flags.ignoreCase then set.caseClosure else set
  return (.set (if negated then set.complement else set), rest)

/-- The complement within the characters that a pattern deals with: all of them, or
bytes. -/
def Flags.complement (flags : Flags) (set : CodeSet) : CodeSet :=
  if flags.unicode then set.complement else set.complement.inter (CodeSet.range 0x00 0xFF)

/-- The set of a short class; a capital letter stands for the complement. -/
def Flags.shortClass (flags : Flags) (letter : Char) : CodeSet :=
  let base :=
    if letter.toLower = 'd' then if flags.unicode then digitSet else asciiDigitSet
    else if letter.toLower = 's' then if flags.unicode then blankSet else asciiBlankSet
    else if flags.unicode then wordSet else asciiWordSet
  if letter.isUpper then flags.complement base else base

/-- Reads the name of a kind of word boundary in braces; text in braces that is no name
is left where it is. -/
def readBoundary (flags : Flags) (text : List Char) : Option (Escape × List Char) :=
  let ascii := !flags.unicode
  match text with
  | '\x7b' :: rest =>
    let isNameChar := fun (c : Char) => c.isAlpha || c = '-'
    match flags.skip rest with
    | [] => none
    | c :: _ =>
      if !isNameChar c then some (.look (.wordBoundary ascii), text)
      else match (flags.skip rest).span isNameChar with
        | (name, tail) =>
          match flags.skip tail with
          | '\x7d' :: rest =>
            let name := String.ofList name
            if name = "start" then some (.look (.wordStart ascii), rest)
            else if name = "end" then some (.look (.wordEnd ascii), rest)
            else if name = "start-half" then some (.look (.wordStartHalf ascii), rest)
            else if name = "end-half" then some (.look (.wordEndHalf ascii), rest)
            else none
          | _ => none
  | _ => some (.look (.wordBoundary ascii), text)

/-- Reads an escape after its backslash. -/
def readEscape (flags : Flags) (text : List Char) : Option (Escape × List Char) :=
  let ascii := !flags.unicode
  match text with
  | [] => none
  | c :: rest =>
    if c = 'x' then readHex 2 rest
    else if c = 'u' then readHex 4 rest
    else if c = 'U' then readHex 8 rest
    else if c = 'p' then readProperty flags false rest
    else if c = 'P' then readProperty flags true rest
    else if ['d', 's', 'w', 'D', 'S', 'W'].contains c then some (.set (flags.shortClass c), rest)
    else if isEscapable c then some (.literal c.toNat false, rest)
    else if c = 'a' then some (.literal 0x07 false, rest)
    else if c = 'f' then some (.literal 0x0C false, rest)
    else if c = 't' then some (.literal 0x09 false, rest)
    else if c = 'n' then some (.literal 0x0A false, rest)
    else if c = 'r' then some (.literal 0x0D false, rest)
    else if c = 'v' then some (.literal 0x0B false, rest)
    else if c = 'A' then some (.look .textStart, rest)
    else if c = 'z' then some (.look .textEnd, rest)
    else if c = 'b' then readBoundary flags rest
    else if c = 'B' then some (.look (.notWordBoundary ascii), rest)
    else if c = '<' then some (.look (.wordStart ascii), rest)
    else if c = '>' then some (.look (.wordEnd ascii), rest)
    else none

/-! ## Sets in brackets -/

/-- The operations between parts of a bracket. -/
inductive SetOperation
  | inter
  | diff
  | symmDiff

/-- Applies an operation between parts of a bracket. -/
def SetOperation.apply : SetOperation → CodeSet → CodeSet → CodeSet
  | inter, a, b => a.inter b
  | diff, a, b => a.diff b
  | symmDiff, a, b => a.symmDiff b

/-- The set with the other cases of its members where case is ignored. -/
def Flags.fold (flags : Flags) (set : CodeSet) : CodeSet :=
  if !flags.ignoreCase then set
  else if flags.unicode then set.caseClosure
  else set.asciiCaseClosure

/-- The part of a bracket read so far: what stands left of the last operation, and the
intervals collected since. -/
structure Bracket where
  left : Option (SetOperation × CodeSet) := none
  intervals : List Interval := []

/-- The set of a bracket read so far. -/
def Bracket.result (flags : Flags) (bracket : Bracket) : CodeSet :=
  let right := CodeSet.ofIntervals bracket.intervals
  match bracket.left with
  | none => right
  | some (operation, left) => operation.apply (flags.fold left) (flags.fold right)

/-- Adds a set to a bracket. -/
def Bracket.add (bracket : Bracket) (set : CodeSet) : Bracket :=
  { bracket with intervals := set.intervals ++ bracket.intervals }

/-- Reads an ASCII class such as `[:alpha:]` after its first bracket. -/
def readAsciiClass (flags : Flags) (text : List Char) : Option (CodeSet × List Char) :=
  match text with
  | ':' :: rest =>
    let (negated, rest) := match rest with
      | '^' :: rest => (true, rest)
      | _ => (false, rest)
    match rest.span (· ≠ ':') with
    | (name, ':' :: ']' :: rest) =>
      (asciiClass? (String.ofList name)).map fun set =>
        (if negated then flags.complement set else set, rest)
    | _ => none
  | _ => none

/-- Reads one item of a bracket: a character or an escape. -/
def readSetItem (flags : Flags) (text : List Char) : Option (Escape × List Char) :=
  match text with
  | [] => none
  | '\\' :: rest => readEscape flags rest
  | c :: rest =>
    if !flags.unicode && 0x7F < c.toNat then none else some (.literal c.toNat false, rest)

/-- Reads an item of a bracket or a range of characters. -/
def readSetRange (flags : Flags) (text : List Char) : Option (CodeSet × List Char) := do
  let (first, rest) ← readSetItem flags text
  let rest := flags.skip rest
  let single : Option (CodeSet × List Char) := match first with
    | .literal code _ => some (⟨[⟨code, code⟩]⟩, rest)
    | .set set => some (set, rest)
    | .look _ => none
  match rest with
  | [] => none
  | '-' :: tail =>
    match flags.skip tail with
    | ']' :: _ => single
    | '-' :: _ => single
    | [] => none
    | tail => do
      let (last, rest) ← readSetItem flags tail
      match first, last with
      | .literal a _, .literal b _ => if a ≤ b then some (CodeSet.range a b, rest) else none
      | _, _ => none
  | _ => single

/-- Reads the hyphens and the closing bracket that stand for themselves at the front of
a bracket. -/
def readLeading (flags : Flags) (bracket : Bracket) : List Char → Bracket × List Char
  | '-' :: rest =>
    let (bracket, rest) := readLeading flags (bracket.add (CodeSet.singleton '-')) rest
    (bracket, flags.skip rest)
  | ']' :: rest =>
    if bracket.intervals.isEmpty then (bracket.add (CodeSet.singleton ']'), flags.skip rest)
    else (bracket, ']' :: rest)
  | text => (bracket, text)

mutual

/-- Reads a bracket after its opening one. -/
def readBracket (flags : Flags) : Nat → List Char → Option (CodeSet × List Char)
  | 0, _ => none
  | fuel + 1, text =>
    let (negated, text) := match flags.skip text with
      | '^' :: rest => (true, flags.skip rest)
      | text => (false, text)
    let (bracket, text) := readLeading flags {} text
    (readBracketItems flags fuel bracket text).map fun (set, rest) =>
      let set := flags.fold set
      (if negated then flags.complement set else set, rest)

/-- Reads the items of a bracket to its closing one. -/
def readBracketItems (flags : Flags) : Nat → Bracket → List Char → Option (CodeSet × List Char)
  | 0, _, _ => none
  | fuel + 1, bracket, text =>
    let operation := fun (op : SetOperation) (rest : List Char) =>
      readBracketItems flags fuel ⟨some (op, bracket.result flags), []⟩ rest
    match flags.skip text with
    | [] => none
    | ']' :: rest => some (bracket.result flags, rest)
    | '[' :: rest =>
      match readAsciiClass flags rest with
      | some (set, rest) => readBracketItems flags fuel (bracket.add set) rest
      | none =>
        match readBracket flags fuel rest with
        | some (set, rest) => readBracketItems flags fuel (bracket.add set) rest
        | none => none
    | '&' :: '&' :: rest => operation .inter rest
    | '-' :: '-' :: rest => operation .diff rest
    | '~' :: '~' :: rest => operation .symmDiff rest
    | text =>
      match readSetRange flags text with
      | some (set, rest) => readBracketItems flags fuel (bracket.add set) rest
      | none => none

end

/-! ## Patterns -/

/-- A set as a pattern; one that would match parts of characters is refused. -/
def Flags.setPattern (flags : Flags) (set : CodeSet) : Option Pattern :=
  if flags.unicode || set.intervals.all (fun i => i.last < 0x80) then some (.chars set) else none

/-- A character as a pattern. -/
def Flags.literal (flags : Flags) (code : Nat) (byte : Bool) : Option Pattern :=
  if !flags.unicode && byte && 0x7F < code then none
  else some (.chars (flags.fold ⟨[⟨code, code⟩]⟩))

/-- The pattern of the dot. -/
def Flags.dot (flags : Flags) : Option Pattern :=
  if !flags.unicode then none
  else if flags.dotAll then some (.chars CodeSet.all)
  else if flags.anyLineBreak then
    some (.chars (CodeSet.ofIntervals [⟨0x0A, 0x0A⟩, ⟨0x0D, 0x0D⟩]).complement)
  else some (.chars (CodeSet.singleton '\n').complement)

/-- The pattern of the caret. -/
def Flags.caret (flags : Flags) : Pattern :=
  if !flags.multiLine then .look .textStart
  else if flags.anyLineBreak then .look .anyLineStart
  else .look .lineStart

/-- The pattern of the dollar sign. -/
def Flags.dollar (flags : Flags) : Pattern :=
  if !flags.multiLine then .look .textEnd
  else if flags.anyLineBreak then .look .anyLineEnd
  else .look .lineEnd

/-- Reads the settings at the front of a group up to the character that ends them. -/
def readFlags (flags : Flags) (seen : List Char) (negated fresh : Bool) :
    List Char → Option (Flags × Char × List Char)
  | [] => none
  | c :: rest =>
    if c = ':' || c = ')' then
      if fresh then none else some (flags, c, rest)
    else if c = '-' then
      if negated then none else readFlags flags seen true true rest
    else if flagLetters.contains c && !seen.contains c then
      readFlags (flags.switch c (!negated)) (c :: seen) negated false rest
    else none

/-- Whether a character may stand at the front of a group's name. -/
def isNameStart (c : Char) : Bool := c = '_' || alphabetic.contains c

/-- Whether a character may stand in a group's name. -/
def isNameChar (c : Char) : Bool :=
  isNameStart c || c = '.' || c = '[' || c = ']' || (majorCategory 'N').contains c

/-- Reads the name of a group up to its closing angle bracket. -/
def readName (text : List Char) : Option (List Char × List Char) :=
  match text.span (· ≠ '>') with
  | (c :: name, _ :: rest) =>
    if isNameStart c && name.all isNameChar then some (c :: name, rest) else none
  | _ => none

/-- Reads one bound of a repetition, with blanks around it. -/
def readBound (text : List Char) : Option (Nat × List Char) :=
  let (digits, rest) := (text.dropWhile Text.isBlank).span fun c => '0' ≤ c && c ≤ '9'
  match (Text.natural? digits).filter (· < 0x100000000) with
  | some n => some (n, rest.dropWhile Text.isBlank)
  | none => none

/-- Reads the bounds of a repetition after the opening brace. -/
def readBounds (text : List Char) : Option (Nat × Option Nat × List Char) := do
  let (least, rest) ← readBound text
  match rest with
  | '\x7d' :: rest => return (least, some least, rest)
  | ',' :: rest =>
    match rest.dropWhile Text.isBlank with
    | '\x7d' :: rest => return (least, none, rest)
    | _ => do
      let (most, rest) ← readBound rest
      match rest with
      | '\x7d' :: rest => if least ≤ most then return (least, some most, rest) else none
      | _ => none
  | _ => none

/-- What is known while a group is read: its settings, the names of groups so far, the
alternatives before the current one and the items of the current one, both with the
last first.  A change of settings is an item without pattern. -/
structure Progress where
  flags : Flags
  names : List (List Char)
  alternatives : List Pattern
  items : List (Option Pattern)

/-- The pattern of the items of an alternative. -/
def Progress.current (progress : Progress) : Pattern :=
  sequence (progress.items.reverse.filterMap id)

/-- The pattern of the alternatives. -/
def Progress.pattern (progress : Progress) : Pattern :=
  Pattern.alternatives (progress.current :: progress.alternatives).reverse

/-- Adds an item. -/
def Progress.add (progress : Progress) (item : Pattern) : Progress :=
  { progress with items := some item :: progress.items }

/-- Repeats the last item; a question mark after the bounds turns the preference
round. -/
def Progress.repeatLast (progress : Progress) (least : Nat) (most : Option Nat)
    (rest : List Char) : Option (Progress × List Char) :=
  match progress.items with
  | some item :: items =>
    let (lazy, rest) := match rest with
      | '?' :: rest => (true, rest)
      | _ => (false, rest)
    let greedy := lazy == progress.flags.swapGreed
    some ({ progress with items := some (.iterate least most greedy item) :: items }, rest)
  | _ => none

/-- Reads one item that is neither a group nor a repetition. -/
def readItem (flags : Flags) (fuel : Nat) (text : List Char) : Option (Pattern × List Char) :=
  match text with
  | [] => none
  | '[' :: rest => do
    let (set, rest) ← readBracket flags fuel rest
    return (← flags.setPattern set, rest)
  | '.' :: rest => flags.dot.map (·, rest)
  | '^' :: rest => some (flags.caret, rest)
  | '$' :: rest => some (flags.dollar, rest)
  | '\\' :: rest => do
    let (escape, rest) ← readEscape flags rest
    match escape with
    | .literal code byte => return (← flags.literal code byte, rest)
    | .set set => return (← flags.setPattern set, rest)
    | .look condition => return (.look condition, rest)
  | c :: rest => (flags.literal c.toNat false).map (·, rest)

/-- How a group begins. -/
inductive GroupStart
  /-- Settings for the rest of the surrounding group. -/
  | settings (flags : Flags)
  | inside (flags : Flags) (names : List (List Char))

/-- Reads the front of a group after its parenthesis. -/
def readGroupStart (progress : Progress) (text : List Char) : Option (GroupStart × List Char) :=
  let flags := progress.flags
  let named := fun (rest : List Char) => do
    let (name, rest) ← readName rest
    if progress.names.contains name then none
    else some (GroupStart.inside flags (name :: progress.names), rest)
  match text with
  | '?' :: 'P' :: '<' :: rest => named rest
  | '?' :: '<' :: '=' :: _ => none
  | '?' :: '<' :: '!' :: _ => none
  | '?' :: '<' :: rest => named rest
  | '?' :: ')' :: _ => none
  | '?' :: rest => do
    let (inner, stop, rest) ← readFlags flags [] false false rest
    if stop = ')' then some (.settings inner, rest)
    else some (.inside inner progress.names, rest)
  | _ => some (.inside flags progress.names, text)

/-- The deepest nesting of groups. -/
def maxNesting : Nat := 250

/-- Reads to the end of a group, or of the text outside all groups. -/
def readGroup : Nat → Nat → Progress → List Char → Option (Progress × List Char)
  | 0, _, _, _ => none
  | fuel + 1, depth, progress, text =>
    let flags := progress.flags
    match flags.skip text with
    | [] => if depth = 0 then some (progress, []) else none
    | ')' :: rest => if depth = 0 then none else some (progress, rest)
    | '|' :: rest =>
      readGroup fuel depth
        { progress with
          alternatives := progress.current :: progress.alternatives, items := [] } rest
    | '(' :: rest =>
      match readGroupStart progress (flags.skip rest) with
      | none => none
      | some (.settings inner, rest) =>
        readGroup fuel depth { progress with flags := inner, items := none :: progress.items } rest
      | some (.inside inner names, rest) =>
        if maxNesting ≤ depth then none
        else match readGroup fuel (depth + 1) ⟨inner, names, [], []⟩ rest with
          | none => none
          | some (inside, rest) =>
            readGroup fuel depth { progress.add inside.pattern with names := inside.names } rest
    | '?' :: rest => again fuel depth (progress.repeatLast 0 (some 1) rest)
    | '*' :: rest => again fuel depth (progress.repeatLast 0 none rest)
    | '+' :: rest => again fuel depth (progress.repeatLast 1 none rest)
    | '\x7b' :: rest =>
      match readBounds rest with
      | none => none
      | some (least, most, rest) => again fuel depth (progress.repeatLast least most rest)
    | text =>
      match readItem flags fuel text with
      | none => none
      | some (item, rest) => readGroup fuel depth (progress.add item) rest
where
  /-- Goes on after a repetition. -/
  again (fuel depth : Nat) : Option (Progress × List Char) → Option (Progress × List Char)
    | none => none
    | some (progress, rest) => readGroup fuel depth progress rest

/-- Reads a pattern; nothing if the text is none, or if it is too large written out. -/
def parse? (text : String) : Option Pattern :=
  let chars := text.toList
  match readGroup (chars.length + 1) 0 ⟨{}, [], [], []⟩ chars with
  | some (progress, []) =>
    let pattern := progress.pattern
    if pattern.weight ≤ maxWeight then some pattern else none
  | _ => none

end Remodel.Pattern
