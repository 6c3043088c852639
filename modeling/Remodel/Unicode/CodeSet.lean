/-!
# Sets of code points

A `CodeSet` is a set of code points given by intervals.  The intervals are kept
in ascending order, disjoint and with a gap between neighbours, so that
membership can stop at the first interval that starts too late and a complement
is read off the gaps.

## Strategy

`CodeSet.ofIntervals` is the only way in: it sorts and merges.  Union,
intersection, complement and difference are then stated through it and through
`complement`, whose result is again in order.

The tables of this folder are written as text: numbers in base 36, alternately
the gap before an interval and the interval's length.  `CodeSet.ofGaps` reads
that form.
-/

namespace Remodel.Unicode

/-- The largest code point. -/
def maxCodePoint : Nat := 0x10FFFF

/-- A closed interval of code points. -/
structure Interval where
  first : Nat
  last : Nat
  deriving Repr, DecidableEq, Inhabited

/-- A set of code points, as ascending intervals with gaps between them. -/
structure CodeSet where
  intervals : List Interval
  deriving Repr, DecidableEq, Inhabited

namespace CodeSet

/-- Membership in ascending intervals: the search ends at the first interval that
starts after the code point. -/
def memIntervals (code : Nat) : List Interval → Bool
  | [] => false
  | interval :: rest =>
    if code < interval.first then false
    else code ≤ interval.last || memIntervals code rest

/-- Whether a code point belongs to the set. -/
def containsCode (set : CodeSet) (code : Nat) : Bool :=
  memIntervals code set.intervals

/-- Whether a character belongs to the set. -/
def contains (set : CodeSet) (c : Char) : Bool :=
  set.containsCode c.toNat

/-- Joins neighbouring intervals that touch or overlap; `current` is the interval
being grown. -/
def mergeFrom (current : Interval) : List Interval → List Interval
  | [] => [current]
  | next :: rest =>
    if next.first ≤ current.last + 1 then
      mergeFrom ⟨current.first, max current.last next.last⟩ rest
    else
      current :: mergeFrom next rest

/-- Sorts and merges intervals given in any order; an interval whose end lies
before its start holds nothing. -/
def ofIntervals (intervals : List Interval) : CodeSet :=
  let proper := intervals.filter fun interval => interval.first ≤ interval.last
  match proper.mergeSort (fun a b => a.first ≤ b.first) with
  | [] => ⟨[]⟩
  | first :: rest => ⟨mergeFrom first rest⟩

/-- The set without members. -/
def empty : CodeSet := ⟨[]⟩

/-- All code points. -/
def all : CodeSet := ⟨[⟨0, maxCodePoint⟩]⟩

/-- The code points from `first` to `last`. -/
def range (first last : Nat) : CodeSet := ofIntervals [⟨first, last⟩]

/-- The set that holds one character. -/
def singleton (c : Char) : CodeSet := ⟨[⟨c.toNat, c.toNat⟩]⟩

/-- Whether the set has no members. -/
def isEmpty (set : CodeSet) : Bool := set.intervals.isEmpty

/-- The code points of either set. -/
def union (a b : CodeSet) : CodeSet := ofIntervals (a.intervals ++ b.intervals)

/-- The gaps of ascending intervals, from `start` on. -/
def gapsFrom (start : Nat) : List Interval → List Interval
  | [] => if start ≤ maxCodePoint then [⟨start, maxCodePoint⟩] else []
  | interval :: rest =>
    if start < interval.first then
      ⟨start, interval.first - 1⟩ :: gapsFrom (interval.last + 1) rest
    else
      gapsFrom (interval.last + 1) rest

/-- The code points that are not in the set. -/
def complement (set : CodeSet) : CodeSet := ⟨gapsFrom 0 set.intervals⟩

/-- The code points of both sets. -/
def inter (a b : CodeSet) : CodeSet := (a.complement.union b.complement).complement

/-- The code points of `a` that are not in `b`. -/
def diff (a b : CodeSet) : CodeSet := a.inter b.complement

/-- The code points of exactly one of the two sets. -/
def symmDiff (a b : CodeSet) : CodeSet := (a.diff b).union (b.diff a)

/-- The value of a digit in base 36, letters in lower case. -/
def base36Digit (c : Char) : Nat :=
  if c.isDigit then c.toNat - '0'.toNat else c.toNat - 'a'.toNat + 10

/-- The numbers of a text of base-36 numerals, each ended by a blank. -/
def base36Numbers (text : List Char) : List Nat :=
  let step := fun (state : Nat × List Nat) (c : Char) =>
    if c = ' ' then (0, state.1 :: state.2) else (state.1 * 36 + base36Digit c, state.2)
  (text.foldl step (0, [])).2.reverse

/-- The intervals that alternating gaps and lengths describe, from `position` on. -/
def intervalsOfGaps (position : Nat) : List Nat → List Interval
  | gap :: length :: rest =>
    ⟨position + gap, position + gap + length - 1⟩ ::
      intervalsOfGaps (position + gap + length) rest
  | _ => []

/-- Reads a table line by line: alternating gaps and lengths in base 36. -/
def ofGaps (lines : List String) : CodeSet :=
  ⟨intervalsOfGaps 0 (base36Numbers (lines.flatMap String.toList))⟩

@[simp] theorem contains_empty (c : Char) : empty.contains c = false := rfl

end CodeSet

end Remodel.Unicode
