import Remodel.Unicode.CodeSet

/-!
# Patterns

Regular expressions as trees.  Groups leave no trace: only where a match begins and
ends is ever asked for.
-/

namespace Remodel

/-- A condition on a place in a text. -/
inductive Look
  | textStart
  | textEnd
  /-- The start of the text, or right after a line feed. -/
  | lineStart
  /-- The end of the text, or right before a line feed. -/
  | lineEnd
  /-- The start of the text, or after a line break that may be a pair. -/
  | anyLineStart
  /-- The end of the text, or before a line break that may be a pair. -/
  | anyLineEnd
  | wordBoundary (ascii : Bool)
  | notWordBoundary (ascii : Bool)
  | wordStart (ascii : Bool)
  | wordEnd (ascii : Bool)
  /-- No word character stands before. -/
  | wordStartHalf (ascii : Bool)
  /-- No word character stands after. -/
  | wordEndHalf (ascii : Bool)
  deriving Repr, DecidableEq

/-- A regular expression. -/
inductive Pattern
  | empty
  /-- One character of a set. -/
  | chars (set : Unicode.CodeSet)
  | look (condition : Look)
  | both (first second : Pattern)
  /-- The first alternative is preferred. -/
  | either (first second : Pattern)
  /-- A number of repetitions; a greedy one prefers more of them. -/
  | iterate (least : Nat) (most : Option Nat) (greedy : Bool) (body : Pattern)
  deriving Repr, Inhabited

namespace Pattern

/-- Patterns one after another. -/
def sequence : List Pattern → Pattern
  | [] => empty
  | [p] => p
  | p :: rest => both p (sequence rest)

/-- Patterns of which one matches, earlier ones preferred. -/
def alternatives : List Pattern → Pattern
  | [] => empty
  | [p] => p
  | p :: rest => either p (alternatives rest)

/-- Whether a match may be empty. -/
def canBeEmpty : Pattern → Bool
  | empty => true
  | chars _ => false
  | look _ => true
  | both first second => first.canBeEmpty && second.canBeEmpty
  | either first second => first.canBeEmpty || second.canBeEmpty
  | iterate least _ _ body => least = 0 || body.canBeEmpty

/-- A measure of the size of the pattern with its repetitions written out, in units of
roughly a byte.  Sets of characters outside ASCII are much larger than others. -/
def weight : Pattern → Nat
  | empty => 24
  | chars set => set.intervals.foldl (fun n i => n + if i.last < 0x80 then 8 else 62) 24
  | look _ => 24
  | both first second => first.weight + second.weight
  | either first second => 24 + first.weight + second.weight
  | iterate least most _ body =>
    24 + (max 1 (most.getD (least + 1))) * (24 + body.weight)

/-- The largest weight of a pattern that is still used. -/
def maxWeight : Nat := 10 * 1048576

end Pattern

end Remodel
