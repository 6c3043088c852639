import Remodel.Decimal.Reading
import Remodel.Text.Blank
import Remodel.Model.Value

/-!
# Coercion

Taking a value to a declared kind.  A value that the kind accepts stays as it is.
Texts are read as numbers, booleans and variants, scalars are written as texts, and
the elements of lists and maps are coerced one by one.

## Strategy

Both `Kind.accepts` and `Kind.coerce` recurse on the kind.  A failure names the
innermost value that could not be coerced and the kind that was asked of it.
-/

namespace Remodel

/-- A value that cannot be taken to a kind: its text, the name of its kind, and the
kind that was asked for. -/
structure CoercionFault where
  value : String
  actual : String
  expected : Kind
  deriving Repr, DecidableEq

namespace CoercionFault

/-- The fault of a value that does not go to a kind. -/
def of (value : Value) (expected : Kind) : CoercionFault :=
  ⟨value.display, value.kindText, expected⟩

/-- The text of a coercion fault. -/
def message (fault : CoercionFault) : String :=
  "cannot coerce " ++ fault.actual ++ " value '" ++ fault.value ++ "' to " ++ fault.expected.text

end CoercionFault

namespace Kind

/-- Whether a value may stand in a field of the kind as it is. -/
def accepts : Kind → Value → Bool
  | string, .string _ => true
  | integer, .integer _ => true
  | float, .float _ => true
  | boolean, .boolean _ => true
  | bytes, .bytes _ => true
  | file, .file _ => true
  | enum variants, .enum name => variants.contains name
  | model typeId, .model m => m.typeId = typeId
  | list item, .list items => items.all fun value => item.accepts value
  | map key value, .map entries =>
    entries.all fun entry => key.accepts entry.1 && value.accepts entry.2
  | _, _ => false

/-- The truth value that a text without blanks at its ends spells. -/
def boolean? (text : String) : Option Bool :=
  if text = "true" then some true
  else if text = "false" then some false
  else none

/-- A variant of an enumeration by its name. -/
def variant (variants : List String) (name : String) : Except CoercionFault Value :=
  if variants.contains name then .ok (.enum name)
  else .error (CoercionFault.of (.string name) (enum variants))

/-- Takes a value to the kind. -/
def coerce : Kind → Value → Except CoercionFault Value
  | integer, .string s =>
    match Text.int64? (Text.trim s) with
    | some i => .ok (.integer i)
    | none => .error (CoercionFault.of (.string s) integer)
  | float, .string s =>
    match Decimal.read? (Text.trim s) with
    | some x => .ok (.float x)
    | none => .error (CoercionFault.of (.string s) float)
  | boolean, .string s =>
    match boolean? (Text.trim s) with
    | some b => .ok (.boolean b)
    | none => .error (CoercionFault.of (.string s) boolean)
  | enum variants, .string s => variant variants s
  | enum variants, .enum name => variant variants name
  | float, .integer i => .ok (.float i.toFloat)
  | string, .integer i => .ok (.string (Text.ofInt64 i))
  | string, .float x => .ok (.string (Decimal.plain.text x))
  | string, .boolean b => .ok (.string (if b then "true" else "false"))
  | string, .enum name => .ok (.string name)
  | list item, .list items => do
    return .list (← items.mapM fun value => item.coerce value)
  | map key value, .map entries => do
    return .map (← entries.mapM fun entry => do
      return (← key.coerce entry.1, ← value.coerce entry.2))
  | kind, value =>
    if kind.accepts value then .ok value else .error (CoercionFault.of value kind)

end Kind

end Remodel
