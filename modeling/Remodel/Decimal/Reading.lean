import Remodel.Text.Numeral

/-!
# Reading a double

A number is an optional sign, digits with an optional point, and an optional
exponent; at least one digit must stand before the exponent.  Infinity and the
value that is not a number have names, in any case.

## Strategy

`scan?` splits a text into its digits and its power of ten.  `ofDecimal` finds the
nearest double; numbers far outside the range are settled by their size first, so
that no power of ten of a large exponent is ever formed.
-/

namespace Remodel.Decimal

/-- A scanned number: the digits as one natural number, and a power of ten. -/
structure Scanned where
  digits : Nat
  exponent : Int
  deriving Repr, DecidableEq

/-- The longest run of digits at the front, and the rest. -/
def spanDigits (text : List Char) : List Char × List Char :=
  text.span fun c => '0' ≤ c && c ≤ '9'

/-- The value of a run of digits. -/
def runValue (digits : List Char) : Nat :=
  (Text.digitsValue digits).getD 0

/-- The exponent that a text consists of; nothing if it is no exponent. -/
def exponentOf? : List Char → Option Int
  | [] => some 0
  | mark :: rest =>
    if mark = 'e' || mark = 'E' then
      let (negative, digits) := match rest with
        | '-' :: digits => (true, digits)
        | '+' :: digits => (false, digits)
        | digits => (false, digits)
      (Text.natural? digits).map fun n => if negative then -(n : Int) else n
    else none

/-- Splits an unsigned number into its digits and its power of ten. -/
def scan? (text : List Char) : Option Scanned :=
  let (whole, rest) := spanDigits text
  let (fraction, rest) := match rest with
    | '.' :: rest => spanDigits rest
    | _ => ([], rest)
  if whole.isEmpty && fraction.isEmpty then none
  else (exponentOf? rest).map fun e =>
    ⟨runValue (whole ++ fraction), e - fraction.length⟩

/-- The double nearest to `digits · 10^exponent`. -/
def ofDecimal (digits : Nat) (exponent : Int) : Float :=
  let size := (Text.decimal digits).length + exponent
  if digits = 0 || size < -400 then 0
  else if 400 < size then 1 / 0
  else Float.ofScientific digits (exponent < 0) exponent.natAbs

/-- The names of the values that have no digits, in lower case. -/
def named? (text : List Char) : Option Float :=
  let lower := String.ofList (text.map Char.toLower)
  if lower = "inf" || lower = "infinity" then some (1 / 0)
  else if lower = "nan" then some (0 / 0)
  else none

/-- Reads a number without sign. -/
def readUnsigned? (text : List Char) : Option Float :=
  match scan? text with
  | some scanned => some (ofDecimal scanned.digits scanned.exponent)
  | none => named? text

/-- Reads a double. -/
def read? (text : String) : Option Float :=
  match text.toList with
  | '-' :: rest => (readUnsigned? rest).map Float.neg
  | '+' :: rest => readUnsigned? rest
  | chars => readUnsigned? chars

end Remodel.Decimal
