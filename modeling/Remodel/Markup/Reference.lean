import Remodel.Codec.Hex

/-!
# References in markup

A reference stands for a character: `&` and `;` enclose one of five names, or `#` and
the number of the character in decimal or, after an `x`, hexadecimal digits.

## Strategy

`decodeFrom` walks the text once.  After an `&` it holds the characters of the
reference, in reverse order, until the `;`.
-/

namespace Remodel.Markup

/-- The character of a name. -/
def named? (name : String) : Option Char :=
  if name = "lt" then some '<'
  else if name = "gt" then some '>'
  else if name = "amp" then some '&'
  else if name = "apos" then some '\''
  else if name = "quot" then some '"'
  else none

/-- The number that digits of a base spell; no digits spell zero. -/
def numberOf? (base : Nat) (digits : List Char) : Option Nat :=
  digits.foldl (fun number c => do
    let digit ← Codec.Hex.value? c.toLower
    if digit < base then return base * (← number) + digit else none) (some 0)

/-- The character of a number, which is written with few digits and is not zero. -/
def numbered? (digits : List Char) : Option Char := do
  let number ← match digits with
    | 'x' :: digits => if digits.length ≤ 6 then numberOf? 16 digits else none
    | digits => if digits.length ≤ 7 then numberOf? 10 digits else none
  if number ≠ 0 && number.isValidChar then return Char.ofNat number else none

/-- The character that a reference stands for. -/
def character? (reference : List Char) : Option Char :=
  match reference with
  | '#' :: digits => numbered? digits
  | name => named? (String.ofList name)

/-- Replaces the references in a text that follows the given part of one. -/
def decodeFrom : Option (List Char) → List Char → Option (List Char)
  | none, [] => some []
  | some _, [] => none
  | none, '&' :: rest => decodeFrom (some []) rest
  | none, c :: rest => (decodeFrom none rest).map (c :: ·)
  | some reference, ';' :: rest => do
    let c ← character? reference.reverse
    return c :: (← decodeFrom none rest)
  | some _, '&' :: _ => none
  | some reference, c :: rest => decodeFrom (some (c :: reference)) rest

/-- The text in which every reference is replaced by its character. -/
def decode? (text : List Char) : Option (List Char) := decodeFrom none text

end Remodel.Markup
