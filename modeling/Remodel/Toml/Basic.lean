import Remodel.Decimal.Layout

/-!
# TOML values

The values of a TOML document and the texts that scalars stand for.
-/

namespace Remodel

/-- A TOML value. -/
inductive Toml
  | string (s : String)
  | integer (i : Int64)
  | float (x : Float)
  | boolean (b : Bool)
  /-- A date, a time of day or both, as it is written. -/
  | moment (text : String)
  | array (items : List Toml)
  | table (entries : List (String × Toml))
  deriving Repr, Inhabited

namespace Toml

/-- The text that a scalar stands for. -/
def scalarText? : Toml → Option String
  | string s => some s
  | integer i => some (Text.ofInt64 i)
  | float x => some (Decimal.plain.text x)
  | boolean b => some (if b then "true" else "false")
  | moment text => some text
  | array _ => none
  | table _ => none

/-- The items of an array. -/
def items? : Toml → Option (List Toml)
  | array items => some items
  | _ => none

end Toml

end Remodel
