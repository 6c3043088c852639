import Remodel.Pattern.Parser
import Remodel.Pattern.Program

/-!
# Searching for a pattern

Where a pattern first matches in a text, and all its matches one after another.  The
match that begins first is taken; of those that begin there, the one that the
pattern's preferences name.

## Strategy

All ways through the program are followed at once, character by character.  A thread
is a place in the program with the place in the text where it began; threads are
kept in the order of preference, each place of the program at most once.  A thread
that accepts ends all threads of lower preference.
-/

namespace Remodel

/-- The surroundings of a place in a text: the character before it and the two after. -/
structure Place where
  before : Option Char
  after : Option Char
  second : Option Char

/-- Whether a character is a word character. -/
def Pattern.isWord (ascii : Bool) (c : Option Char) : Bool :=
  match c with
  | none => false
  | some c => if ascii then Pattern.asciiWordSet.contains c else Pattern.wordSet.contains c

/-- Whether a condition holds at a place. -/
def Look.holds (condition : Look) (place : Place) : Bool :=
  let wordBefore := fun ascii => Pattern.isWord ascii place.before
  let wordAfter := fun ascii => Pattern.isWord ascii place.after
  match condition with
  | .textStart => place.before.isNone
  | .textEnd => place.after.isNone
  | .lineStart => place.before.isNone || place.before = some '\n'
  | .lineEnd => place.after.isNone || place.after = some '\n'
  | .anyLineStart =>
    place.before.isNone || place.before = some '\n' ||
      (place.before = some '\r' && place.after ≠ some '\n')
  | .anyLineEnd =>
    place.after.isNone || place.after = some '\r' ||
      (place.after = some '\n' && place.before ≠ some '\r')
  | .wordBoundary ascii => wordBefore ascii ≠ wordAfter ascii
  | .notWordBoundary ascii => wordBefore ascii = wordAfter ascii
  | .wordStart ascii => !wordBefore ascii && wordAfter ascii
  | .wordEnd ascii => wordBefore ascii && !wordAfter ascii
  | .wordStartHalf ascii => !wordBefore ascii
  | .wordEndHalf ascii => !wordAfter ascii

namespace Pattern

/-- A way through the program: where it is, and where in the text it began. -/
structure Thread where
  place : Nat
  start : Nat

/-- The threads at one place of the text, in reverse order of preference, and which
places of the program they or the ways to them have reached. -/
structure Threads where
  list : List Thread
  reached : Array Bool

/-- No threads. -/
def Threads.none (program : Program) : Threads := ⟨[], Array.replicate program.code.size false⟩

/-- Follows a thread through splits and conditions to the instructions that take a
character or accept.  Every place of the program is expanded at most once and adds at
most two to the stack, which bounds the number of steps. -/
def follow (program : Program) (place : Place) (start : Nat) :
    Nat → List Nat → Threads → Threads
  | 0, _, threads => threads
  | _, [], threads => threads
  | fuel + 1, at_ :: stack, threads =>
    if threads.reached.getD at_ true then follow program place start fuel stack threads
    else
      let threads := { threads with reached := threads.reached.setIfInBounds at_ true }
      match program.code[at_]? with
      | some (.split preferred other) =>
        follow program place start fuel (preferred :: other :: stack) threads
      | some (.check condition next) =>
        if condition.holds place then follow program place start fuel (next :: stack) threads
        else follow program place start fuel stack threads
      | some _ =>
        follow program place start fuel stack { threads with list := ⟨at_, start⟩ :: threads.list }
      | none => follow program place start fuel stack threads

/-- Adds a thread at an instruction. -/
def addThread (program : Program) (place : Place) (start at_ : Nat) (threads : Threads) : Threads :=
  follow program place start (2 * program.code.size + 2) [at_] threads

/-- Moves the threads over a character, in the order of preference, up to the first one
that accepts.  Gives the threads after the character and the match. -/
def stepThreads (program : Program) (position : Nat) (next : Option Char) (place : Place) :
    List Thread → Threads → Option (Nat × Nat) → Threads × Option (Nat × Nat)
  | [], threads, found => (threads, found)
  | thread :: rest, threads, found =>
    match program.code[thread.place]? with
    | some .accept => (threads, some (thread.start, position))
    | some (.take set target) =>
      let matched := match next with
        | some c => set.contains c
        | none => false
      if matched then
        stepThreads program position next place rest
          (addThread program place thread.start target threads) found
      else stepThreads program position next place rest threads found
    | _ => stepThreads program position next place rest threads found

/-- The place in a text between a character and the rest. -/
def placeAt (before : Option Char) (rest : List Char) : Place :=
  ⟨before, rest.head?, rest.tail.head?⟩

/-- Searches on from a place with the threads that have reached it. -/
def searchFrom (program : Program) (before : Option Char) (position : Nat) (threads : Threads)
    (found : Option (Nat × Nat)) (rest : List Char) : Option (Nat × Nat) :=
  let threads :=
    if found.isSome then threads
    else addThread program (placeAt before rest) position program.start threads
  match rest with
  | [] =>
    (stepThreads program position none (placeAt before []) threads.list.reverse
      (Threads.none program) found).2
  | c :: tail =>
    let (next, found) :=
      stepThreads program position (some c) (placeAt (some c) tail) threads.list.reverse
        (Threads.none program) found
    if found.isSome && next.list.isEmpty then found
    else searchFrom program (some c) (position + 1) next found tail

/-- The first match in the rest of a text, as the positions of its two ends; the rest
begins at `position`, after the character `before`. -/
def Program.find (program : Program) (before : Option Char) (position : Nat) (rest : List Char) :
    Option (Nat × Nat) :=
  searchFrom program before position (Threads.none program) none rest

/-- The rest of a text after so many more characters, with the character before it. -/
def advance (before : Option Char) : Nat → List Char → Option Char × List Char
  | 0, rest => (before, rest)
  | _ + 1, [] => (before, [])
  | count + 1, c :: rest => advance (some c) count rest

/-- The matches from a position on.  A match that is empty and begins where the last one
ended is passed over: the search goes on one character later. -/
def Program.matchesFrom (program : Program) :
    Nat → Option Char → Nat → List Char → Option Nat → List (Nat × Nat)
  | 0, _, _, _, _ => []
  | fuel + 1, before, position, rest, lastEnd =>
    let found := match program.find before position rest with
      | some (first, last) =>
        if first = last && lastEnd = some last then
          match rest with
          | [] => none
          | c :: tail => program.find (some c) (position + 1) tail
        else some (first, last)
      | none => none
    match found with
    | none => []
    | some (first, last) =>
      let (before, rest) := advance before (last - position) rest
      (first, last) :: program.matchesFrom fuel before last rest (some last)

/-- All matches in a text, from left to right.  Every match ends later than the one
before it, so that there is at most one for every place. -/
def Program.matchesIn (program : Program) (text : List Char) : List (Nat × Nat) :=
  program.matchesFrom (text.length + 2) none 0 text none

/-- The first match at the front of a text; nothing if the first match begins later. -/
def Program.leading? (program : Program) (text : List Char) : Option Nat :=
  match program.find none 0 text with
  | some (0, last) => some last
  | _ => none

end Pattern

end Remodel
