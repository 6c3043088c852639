/-!
# Similar names

How well a short pattern fits a name, when the pattern's characters occur in the
name in order.  The score is that of the best alignment: matched characters gain
points, more of them at the start of a word or in a run, and gaps cost points.

## Strategy

`alignRow` extends every alignment by one character of the pattern.  A cell holds
the best score with a match at its position, and the best score with a gap there;
the score of the whole is the best match in the last row.
-/

namespace Remodel.Text.Similarity

/-- Points for a matched character. -/
def matchScore : Int := 16
/-- Points for a matched character of the other case. -/
def otherCaseScore : Int := 14
/-- Cost of the first character of a gap. -/
def gapStart : Int := 3
/-- Cost of every further character of a gap. -/
def gapExtension : Int := 1
/-- Least bonus of a match right after another match. -/
def runBonus : Int := 4
/-- A score that no alignment reaches. -/
def unreachable : Int := -32768

/-- What a character is for the beginning of words. -/
inductive CharRole
  | edge
  | wordBreak
  | innerBreak
  | digit
  | upper
  | other
  deriving DecidableEq

/-- The role of a character. -/
def roleOf (c : Char) : CharRole :=
  if c = ' ' || c = '/' || c = '\\' || c = '|' || c = '(' || c = ')' || c = '[' || c = ']' ||
      c = '\x7b' || c = '\x7d' then .wordBreak
  else if ('!' ≤ c && c ≤ '\x27') || ('*' ≤ c && c ≤ '.') || (':' ≤ c && c ≤ '@') ||
      ('^' ≤ c && c ≤ '\x60') || c = '~' then .innerBreak
  else if c.isDigit then .digit
  else if c.isUpper then .upper
  else .other

/-- The bonus of a match on a character after another one. -/
def placeBonus (before here : CharRole) : Int :=
  match before, here with
  | .edge, _ => 8
  | .wordBreak, _ => 8
  | .innerBreak, _ => 7
  | .other, .upper => 6
  | .digit, .upper => 6
  | _, _ => 0

/-- The bonuses of a name's characters, `before` being the role of the one before. -/
def placeBonuses (before : CharRole) : List Char → List Int
  | [] => []
  | c :: rest => placeBonus before (roleOf c) :: placeBonuses (roleOf c) rest

/-- The characters of a name, each with its bonus; that of the first one counts twice. -/
def weighted (name : List Char) : List (Char × Int) :=
  match name, placeBonuses .edge name with
  | c :: rest, bonus :: bonuses => (c, 2 * bonus) :: rest.zip bonuses
  | _, _ => []

/-- The best scores of alignments that end at one position of the name. -/
structure Cell where
  /-- With a match at the position. -/
  matched : Int
  /-- With a gap at the position. -/
  skipped : Int
  /-- The bonus that a match right after this one takes over. -/
  bonus : Int

/-- Points for one character of the pattern on one character of the name. -/
def charScore (caseSensitive : Bool) (p c : Char) : Option Int :=
  if p = c then some matchScore
  else if !caseSensitive && p.toLower = c.toLower then some otherCaseScore
  else none

/-- One row of cells from the row above: `above` is the cell above and before, `last`
the cell before in this row. -/
def alignFrom (caseSensitive : Bool) (p : Char) (above last : Cell) :
    List (Char × Int) → List Cell → List Cell
  | (c, place) :: name, next :: cells =>
    let gap := max (last.matched - gapStart) (last.skipped - gapExtension)
    let cell : Cell := match charScore caseSensitive p c with
      | none => ⟨unreachable, gap, 0⟩
      | some score =>
        let bonus := max above.bonus (max place runBonus)
        ⟨max (above.matched + bonus) (above.skipped + place) + score, gap, bonus⟩
    cell :: alignFrom caseSensitive p next cell name cells
  | _, _ => []

/-- The cell before the first character of a name, once a pattern character is to match. -/
def outside : Cell := ⟨unreachable, unreachable, 0⟩

/-- The cell of the empty pattern: passing over characters in front costs nothing. -/
def start : Cell := ⟨unreachable, 0, 0⟩

/-- Extends the alignments of a row by one more character of the pattern. -/
def alignRow (caseSensitive : Bool) (name : List (Char × Int)) (row : List Cell) (p : Char) :
    List Cell :=
  match row with
  | [] => []
  | above :: cells => outside :: alignFrom caseSensitive p above outside name cells

/-- Whether the pattern's characters occur in the name in order. -/
def isWithin (caseSensitive : Bool) : List Char → List Char → Bool
  | [], _ => true
  | _ :: _, [] => false
  | p :: pattern, c :: name =>
    if (charScore caseSensitive p c).isSome then isWithin caseSensitive pattern name
    else isWithin caseSensitive (p :: pattern) name

/-- The score of the pattern in the name; nothing if it does not occur there.  Case
counts as soon as the pattern has an upper-case ASCII letter. -/
def score (pattern name : String) : Option Int :=
  let wanted := pattern.toList
  let letters := name.toList
  let caseSensitive := wanted.any Char.isUpper
  if wanted.isEmpty then some 0
  else if isWithin caseSensitive wanted letters then
    let row := List.replicate (letters.length + 1) start
    let last := wanted.foldl (alignRow caseSensitive (weighted letters)) row
    some (last.foldl (fun best cell => max best cell.matched) unreachable)
  else none

/-- The name with the best score, and of equal ones the smallest. -/
def best (pattern : String) (names : List String) : Option String :=
  let better := fun (chosen : Option (Int × String)) (name : String) =>
    match score pattern name, chosen with
    | none, _ => chosen
    | some s, none => some (s, name)
    | some s, some (t, other) => if t < s || (s = t && name < other) then some (s, name) else chosen
  (names.foldl better none).map Prod.snd

end Remodel.Text.Similarity
