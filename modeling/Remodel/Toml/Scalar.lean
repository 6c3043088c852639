import Remodel.Codec.Hex
import Remodel.Decimal.Reading
import Remodel.Toml.Basic

/-!
# Scalars without quotes in TOML

Truth values, integers in four bases, floats, dates and times.

## Strategy

The characters of a scalar are cut out of the document first and must be read
completely; single underscores between digits do not count.
-/

namespace Remodel.Toml

/-- The digits without the underscores between them; every underscore stands between two
digits. -/
def digits? (isDigit : Char → Bool) : List Char → Option (List Char)
  | [] => none
  | [c] => if isDigit c then some [c] else none
  | c :: '_' :: rest => if isDigit c then (digits? isDigit rest).map (c :: ·) else none
  | c :: rest => if isDigit c then (digits? isDigit rest).map (c :: ·) else none

/-- The number that digits of a base spell. -/
def numberOf (base : Nat) (digits : List Char) : Nat :=
  digits.foldl (fun number c => base * number + (Codec.Hex.value? c).getD 0) 0

/-- A sign, if there is one, and what follows. -/
def signed : List Char → Bool × List Char
  | '-' :: rest => (true, rest)
  | '+' :: rest => (false, rest)
  | text => (false, text)

/-- Decimal digits that do not begin with a needless zero. -/
def decimalDigits? (text : List Char) : Option (List Char) := do
  let digits ← digits? Char.isDigit text
  if 1 < digits.length && digits.head? = some '0' then none else return digits

/-- An integer if it fits 64 bits. -/
def fitting? (i : Int) : Option Toml :=
  if Text.fitsInt64 i then some (.integer (Int64.ofInt i)) else none

/-- Reads an integer in another base than ten. -/
def based? (base : Nat) (text : List Char) : Option Toml := do
  let isDigit := fun (c : Char) => ((Codec.Hex.value? c).map (decide <| · < base)).getD false
  fitting? (numberOf base (← digits? isDigit text))

/-- Reads an integer. -/
def integer? : List Char → Option Toml
  | '0' :: 'x' :: rest => based? 16 rest
  | '0' :: 'o' :: rest => based? 8 rest
  | '0' :: 'b' :: rest => based? 2 rest
  | text => do
    let (negative, rest) := signed text
    let number : Int := numberOf 10 (← decimalDigits? rest)
    fitting? (if negative then -number else number)

/-- Reads a float: a whole part with a fraction, an exponent or both, or a named one. -/
def float? (text : List Char) : Option Toml := do
  let (negative, rest) := signed text
  let sign := if negative then ['-'] else []
  if rest = ['i', 'n', 'f'] || rest = ['n', 'a', 'n'] then
    return .float (← Decimal.read? (String.ofList (sign ++ rest)))
  let isMark := fun (c : Char) => c = 'e' || c = 'E'
  let mantissa := rest.takeWhile fun c => !isMark c
  let exponent := rest.dropWhile fun c => !isMark c
  let whole ← decimalDigits? (mantissa.takeWhile (· ≠ '.'))
  let fraction ← match mantissa.dropWhile (· ≠ '.') with
    | [] => some []
    | _ :: digits => (digits? Char.isDigit digits).map ('.' :: ·)
  let power ← match exponent with
    | [] => some []
    | _ :: digits =>
      let (down, digits) := signed digits
      (digits? Char.isDigit digits).map fun digits =>
        'e' :: (if down then ['-'] else []) ++ digits
  if fraction.isEmpty && power.isEmpty then none
  let x ← Decimal.read? (String.ofList (sign ++ whole ++ fraction ++ power))
  if x.isInf then none else return .float x

/-! ### Dates and times -/

/-- The number of two or more digits. -/
def fixed? (digits : List Char) : Option Nat :=
  if digits.all Char.isDigit then some (numberOf 10 digits) else none

/-- The number of days in a month. -/
def daysIn (year month : Nat) : Nat :=
  let leap := year % 4 = 0 && (year % 100 ≠ 0 || year % 400 = 0)
  if month = 2 then if leap then 29 else 28
  else if [4, 6, 9, 11].contains month then 30
  else 31

/-- Takes a date off a text. -/
def date? : List Char → Option (List Char × List Char)
  | a :: b :: c :: d :: '-' :: e :: f :: '-' :: g :: h :: rest => do
    let year ← fixed? [a, b, c, d]
    let month ← fixed? [e, f]
    let day ← fixed? [g, h]
    if 1 ≤ month && month ≤ 12 && 1 ≤ day && day ≤ daysIn year month then
      return ([a, b, c, d, '-', e, f, '-', g, h], rest)
    else none
  | _ => none

/-- Takes the fraction of a second off a text; nine digits count, and zeros at their end do
not. -/
def fraction? : List Char → Option (List Char × List Char)
  | '.' :: rest =>
    let digits := rest.takeWhile Char.isDigit
    let kept := ((digits.take 9).reverse.dropWhile (· = '0')).reverse
    if digits.isEmpty then none
    else some (if kept.isEmpty then [] else '.' :: kept, rest.dropWhile Char.isDigit)
  | rest => some ([], rest)

/-- Takes a time of day off a text. -/
def time? : List Char → Option (List Char × List Char)
  | a :: b :: ':' :: c :: d :: ':' :: e :: f :: rest => do
    let hour ← fixed? [a, b]
    let minute ← fixed? [c, d]
    let second ← fixed? [e, f]
    let (fraction, rest) ← fraction? rest
    if hour ≤ 23 && minute ≤ 59 && second ≤ 60 then
      return ([a, b, ':', c, d, ':', e, f] ++ fraction, rest)
    else none
  | _ => none

/-- Reads the distance of a time zone at the end of a text. -/
def zone? : List Char → Option (List Char)
  | [] => some []
  | ['Z'] => some ['Z']
  | ['z'] => some ['Z']
  | [sign, a, b, ':', c, d] => do
    let hour ← fixed? [a, b]
    let minute ← fixed? [c, d]
    if (sign = '+' || sign = '-') && hour ≤ 23 && minute ≤ 59 then
      return [sign, a, b, ':', c, d]
    else none
  | _ => none

/-- Reads a date, a time of day, or both. -/
def moment? (text : List Char) : Option Toml :=
  let written := fun (chars : List Char) => Toml.moment (String.ofList chars)
  match date? text with
  | some (date, []) => some (written date)
  | some (date, mark :: rest) => do
    let (time, rest) ← time? rest
    let zone ← zone? rest
    if mark = 'T' || mark = 't' || mark = ' ' then return written (date ++ 'T' :: time ++ zone)
    else none
  | none =>
    match time? text with
    | some (time, []) => some (written time)
    | _ => none

/-- Reads a scalar without quotes. -/
def scalar? (text : List Char) : Option Toml :=
  if text = "true".toList then some (.boolean true)
  else if text = "false".toList then some (.boolean false)
  else ((integer? text).or (float? text)).or (moment? text)

end Remodel.Toml
