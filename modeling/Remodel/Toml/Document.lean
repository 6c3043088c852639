import Remodel.Toml.Quoted
import Remodel.Toml.Scalar

/-!
# TOML documents

A document is a sequence of lines: headers, which choose the table for what follows, and
assignments, which put a value under a key.  No key gets two values, and no table is
defined twice.

## Strategy

While a document is read, its tables are nodes that remember how they came about: by a
header, on the way to another table, or by a key with dots.  Values nest, and reading
them carries the number of characters as the depth that cannot be exceeded.
-/

namespace Remodel.TomlDocument

open Toml (isSpace isPlain atLineEnd dropLineEnd quoted? moment? scalar?)

/-- What stands under a key while a document is read.  A table is `implicit` until a header
defines it, and `dotted` if a key with dots made it. -/
inductive Node
  | value (value : Toml)
  | table (implicit dotted : Bool) (entries : List (String × Node))
  /-- The tables of a list of tables, the last one first. -/
  | tables (last : List (String × Node)) (earlier : List (List (String × Node)))

/-- The nodes under their keys. -/
abbrev Nodes := List (String × Node)

mutual

/-- The value of a node. -/
def Node.toToml : Node → Toml
  | .value value => value
  | .table _ _ entries => .table (entriesToToml entries)
  | .tables last earlier => .array (tablesToToml earlier [.table (entriesToToml last)])

/-- The values of nodes under their keys. -/
def entriesToToml : List (String × Node) → List (String × Toml)
  | [] => []
  | (key, node) :: rest => (key, node.toToml) :: entriesToToml rest

/-- The values of tables, the last one first, before other values. -/
def tablesToToml : List (List (String × Node)) → List Toml → List Toml
  | [], values => values
  | entries :: earlier, values => tablesToToml earlier (.table (entriesToToml entries) :: values)

end

namespace Nodes

/-- The nodes with another node under a key. -/
def replace (nodes : Nodes) (key : String) (node : Node) : Nodes :=
  if (nodes.lookup key).isSome then
    nodes.map fun entry => if entry.1 = key then (key, node) else entry
  else nodes ++ [(key, node)]

/-- Puts a value under a key, in the table that the names before it lead to.  `dotted` says
whether the nodes are those of a table that a key with dots made, `wanted` whether the
table of the key must be such a one. -/
def assign (key : String) (value : Toml) (wanted : Bool) :
    (dotted : Bool) → (path : List String) → Nodes → Option Nodes
  | dotted, [], nodes =>
    if dotted ≠ wanted || (nodes.lookup key).isSome then none
    else some (nodes ++ [(key, .value value)])
  | _, name :: path, nodes => do
    let node ← match nodes.lookup name with
      | none => some (Node.table true true (← assign key value wanted true path []))
      | some (.table implicit dotted entries) =>
        if implicit then
          some (.table implicit dotted (← assign key value wanted dotted path entries))
        else none
      | some (.tables last earlier) =>
        some (.tables (← assign key value wanted false path last) earlier)
      | some (.value _) => none
    return nodes.replace name node

/-- Changes the table that names lead to, making the tables on the way. -/
def modify (change : Nodes → Option Nodes) : List String → Nodes → Option Nodes
  | [], nodes => change nodes
  | name :: path, nodes => do
    let node ← match nodes.lookup name with
      | none => some (Node.table true false (← modify change path []))
      | some (.table implicit dotted entries) =>
        some (.table implicit dotted (← modify change path entries))
      | some (.tables last earlier) => some (.tables (← modify change path last) earlier)
      | some (.value _) => none
    return nodes.replace name node

/-- Defines the table under a key. -/
def defineTable (key : String) (nodes : Nodes) : Option Nodes :=
  match nodes.lookup key with
  | none => some (nodes.replace key (.table false false []))
  | some (.table true false entries) => some (nodes.replace key (.table false false entries))
  | some _ => none

/-- Adds a table to the list of tables under a key. -/
def addTable (key : String) (nodes : Nodes) : Option Nodes :=
  match nodes.lookup key with
  | none => some (nodes.replace key (.tables [] []))
  | some (.tables last earlier) => some (nodes.replace key (.tables [] (last :: earlier)))
  | some _ => none

end Nodes

/-! ### Blanks and keys -/

/-- The text without blanks at its front. -/
def skipSpaces (text : List Char) : List Char := text.dropWhile isSpace

/-- The text without a comment at its front, up to the end of the line. -/
def skipComment? : List Char → Option (List Char)
  | '#' :: rest =>
    let after := rest.dropWhile isPlain
    if after.isEmpty || atLineEnd after then some after else none
  | text => some text

/-- The text without blanks, comments and line ends at its front; at most `fuel` lines are
passed over. -/
def skipGaps? : Nat → List Char → Option (List Char)
  | 0, text => some text
  | fuel + 1, text => do
    let text ← skipComment? (skipSpaces text)
    if atLineEnd text then skipGaps? fuel (dropLineEnd text) else some text

/-- Whether a character may stand in a key without quotes. -/
def isBare (c : Char) : Bool := c.isAlphanum || c = '_' || c = '-'

/-- A key without dots, and what follows it. -/
def simpleKey? (text : List Char) : Option (String × List Char) :=
  match text with
  | '"' :: '"' :: '"' :: _ => none
  | '\'' :: '\'' :: '\'' :: _ => none
  | '"' :: _ => (quoted? text).map fun split => (String.ofList split.1, split.2)
  | '\'' :: _ => (quoted? text).map fun split => (String.ofList split.1, split.2)
  | _ =>
    let name := text.takeWhile isBare
    if name.isEmpty then none else some (String.ofList name, text.dropWhile isBare)

/-- The names of a key with dots between them, and what follows it without blanks; the key
has at most `fuel` dots. -/
def key? : Nat → List Char → Option (List String × List Char)
  | 0, _ => none
  | fuel + 1, text => do
    let (name, rest) ← simpleKey? (skipSpaces text)
    match skipSpaces rest with
    | '.' :: rest => do
      let (names, rest) ← key? fuel rest
      return (name :: names, rest)
    | rest => return ([name], rest)

/-! ### Values -/

/-- Whether a character ends a scalar without quotes. -/
def endsScalar (c : Char) : Bool := [',', ']', '\x7d', '#', ' ', '\t', '\n', '\r'].contains c

/-- A scalar without quotes, and what follows it; a blank may stand between a date and a
time. -/
def bareValue? (text : List Char) : Option (Toml × List Char) :=
  let word := text.takeWhile fun c => !endsScalar c
  let rest := text.drop word.length
  let time := (rest.drop 1).takeWhile fun c => !endsScalar c
  let both := if rest.head? = some ' ' then moment? (word ++ ' ' :: time) else none
  match both with
  | some value => some (value, rest.drop (1 + time.length))
  | none => (scalar? word).map fun value => (value, rest)

mutual

/-- A value, and what follows it. -/
def value? : Nat → List Char → Option (Toml × List Char)
  | 0, _ => none
  | fuel + 1, text =>
    match text with
    | '[' :: rest => do
      let (items, rest) ← items? fuel (← skipGaps? rest.length rest)
      return (.array items, rest)
    | '\x7b' :: rest =>
      match skipSpaces rest with
      | '\x7d' :: rest => some (.table [], rest)
      | rest => do
        let (nodes, rest) ← members? fuel [] rest
        return (.table (entriesToToml nodes), rest)
    | '"' :: _ => (quoted? text).map fun split => (.string (String.ofList split.1), split.2)
    | '\'' :: _ => (quoted? text).map fun split => (.string (String.ofList split.1), split.2)
    | _ => bareValue? text

/-- The items of an array up to the closing bracket, and what follows it. -/
def items? : Nat → List Char → Option (List Toml × List Char)
  | 0, _ => none
  | fuel + 1, text =>
    match text with
    | ']' :: rest => some ([], rest)
    | _ => do
      let (item, rest) ← value? fuel text
      match ← skipGaps? rest.length rest with
      | ',' :: rest => do
        let (items, rest) ← items? fuel (← skipGaps? rest.length rest)
        return (item :: items, rest)
      | ']' :: rest => return ([item], rest)
      | _ => none

/-- The members of a table on one line up to the closing brace, after those that were read
already, and what follows it. -/
def members? : Nat → Nodes → List Char → Option (Nodes × List Char)
  | 0, _, _ => none
  | fuel + 1, nodes, text => do
    let (names, rest) ← key? (text.length + 1) text
    let '=' :: rest := rest | none
    let (value, rest) ← value? fuel (skipSpaces rest)
    let path := names.dropLast
    let nodes ← Nodes.assign (names.getLast?.getD "") value (!path.isEmpty) false path nodes
    match skipSpaces rest with
    | ',' :: rest => members? fuel nodes rest
    | '\x7d' :: rest => return (nodes, rest)
    | _ => none

end

/-! ### Lines -/

/-- What follows a line that ends here; nothing if something else stands in it. -/
def lineRest? (text : List Char) : Option (List Char) := do
  let rest ← skipComment? (skipSpaces text)
  if rest.isEmpty then some []
  else if atLineEnd rest then some (dropLineEnd rest)
  else none

/-- Reads a line into the nodes of the document; gives the names of the table that the next
assignments go to, the nodes, and the following lines. -/
def readLine? (table : List String) (nodes : Nodes) (text : List Char) :
    Option (List String × Nodes × List Char) :=
  match skipSpaces text with
  | '[' :: '[' :: rest => do
    let (names, rest) ← key? (rest.length + 1) rest
    let ']' :: ']' :: rest := rest | none
    let nodes ← nodes.modify (Nodes.addTable (names.getLast?.getD "")) names.dropLast
    return (names, nodes, ← lineRest? rest)
  | '[' :: rest => do
    let (names, rest) ← key? (rest.length + 1) rest
    let ']' :: rest := rest | none
    let nodes ← nodes.modify (Nodes.defineTable (names.getLast?.getD "")) names.dropLast
    return (names, nodes, ← lineRest? rest)
  | line =>
    if line.isEmpty || atLineEnd line || line.head? = some '#' then do
      return (table, nodes, ← lineRest? line)
    else do
      let (names, rest) ← key? (line.length + 1) line
      let '=' :: rest := rest | none
      let (value, rest) ← value? (rest.length + 1) (skipSpaces rest)
      let path := names.dropLast
      let nodes ←
        nodes.modify (Nodes.assign (names.getLast?.getD "") value (!path.isEmpty) false path) table
      return (table, nodes, ← lineRest? rest)

/-- Reads at most `fuel` lines. -/
def readLines? : Nat → List String → Nodes → List Char → Option Nodes
  | 0, _, nodes, _ => some nodes
  | fuel + 1, table, nodes, text =>
    if text.isEmpty then some nodes
    else do
      let (table, nodes, rest) ← readLine? table nodes text
      readLines? fuel table nodes rest

/-- Reads a document; gives the entries of its outermost table. -/
def parse? (text : String) : Option (List (String × Toml)) :=
  let chars := match text.toList with
    | '\uFEFF' :: rest => rest
    | chars => chars
  (readLines? (chars.length + 1) [] [] chars).map entriesToToml

end Remodel.TomlDocument
