import Remodel.Decimal.Shortest
import Remodel.Text.Numeral

/-!
# The text of a double

The digits of a double are written by a `Layout`: where the positional form ends,
whether a whole number keeps a point and a zero, and how the values that are no
numbers are spelled.

## Strategy

Two layouts are used.  `plain` always writes all places and writes whole numbers
without a point.  `json` keeps a point in every number and has exponents for very
small and very large numbers; what JSON cannot write becomes `null`.
-/

namespace Remodel.Decimal

/-- How the digits of a double become text. -/
structure Layout where
  /-- The digits chosen between two that are equally near. -/
  tie : Tie
  /-- The places of the point for which the number is written without exponent. -/
  positional : Int → Bool
  /-- Whether a whole number ends in a point and a zero. -/
  keepsPoint : Bool
  /-- The text of what is not a number. -/
  notANumber : String
  /-- The text of infinity. -/
  infinite : String
  /-- Whether a negative infinity has a sign. -/
  signedInfinity : Bool

/-- All places, no exponent. -/
def plain : Layout :=
  { tie := .up
    positional := fun _ => true
    keepsPoint := false
    notANumber := "NaN"
    infinite := "inf"
    signedInfinity := true }

/-- Places from the fifth after the point to the sixteenth before it, else an exponent. -/
def json : Layout :=
  { tie := .toEven
    positional := fun point => -5 < point && point ≤ 16
    keepsPoint := true
    notANumber := "null"
    infinite := "null"
    signedInfinity := false }

/-- The digits of a decimal, as many as it counts. -/
def Digits.chars (d : Digits) : List Char :=
  let written := Text.decimal d.digits
  List.replicate (d.count - written.length) '0' ++ written

/-- The digits in their places. -/
def positionalText (keepsPoint : Bool) (digits : List Char) (point : Int) : List Char :=
  if point ≤ 0 then
    '0' :: '.' :: (List.replicate (-point).toNat '0' ++ digits)
  else if digits.length ≤ point.toNat then
    digits ++ List.replicate (point.toNat - digits.length) '0' ++
      (if keepsPoint then ['.', '0'] else [])
  else
    digits.take point.toNat ++ '.' :: digits.drop point.toNat

/-- One digit before the point, and an exponent with its sign. -/
def exponentText (digits : List Char) (point : Int) : List Char :=
  let exponent := point - 1
  let mark := if exponent < 0 then ['e', '-'] else ['e', '+']
  let shown := match digits with
    | [d] => [d]
    | d :: rest => d :: '.' :: rest
    | [] => []
  shown ++ mark ++ Text.decimal exponent.natAbs

/-- The text of a double in a layout. -/
def Layout.text (layout : Layout) (x : Float) : String :=
  match magnitude x with
  | .notANumber => layout.notANumber
  | .infinite negative =>
    if negative && layout.signedInfinity then "-" ++ layout.infinite else layout.infinite
  | .finite ⟨negative, significand, exponent⟩ =>
    let sign := if negative then ['-'] else []
    let body :=
      if significand = 0 then
        if layout.keepsPoint then ['0', '.', '0'] else ['0']
      else
        let d := shortest layout.tie significand exponent
        if layout.positional d.point then positionalText layout.keepsPoint d.chars d.point
        else exponentText d.chars d.point
    String.ofList (sign ++ body)

end Remodel.Decimal
