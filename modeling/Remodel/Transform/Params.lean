import Remodel.Text.Blank
import Remodel.Text.Numeral
import Remodel.Trace

/-!
# Parameters of steps

Reading the parameters of a step: texts that may be missing or must be there, and
indexes that fall back to a default or must be well formed.
-/

namespace Remodel

/-- The parameters of a step, by name. -/
abbrev Params := List (String × String)

namespace Params

/-- The value of a parameter. -/
def optional (params : Params) (name : String) : Option String := params.lookup name

/-- The value of a parameter that must be there. -/
def required (params : Params) (name : String) : Except StepFault String :=
  match params.optional name with
  | some value => .ok value
  | none => .error (.missingParameter name)

/-- The index that a text spells, with blanks at its ends. -/
def index? (text : String) : Option Nat := Text.index? (Text.trim text)

/-- An index, or the default if it is missing or no index; the latter is reported. -/
def indexOr (params : Params) (name : String) (default : Nat) : Traced Nat :=
  match params.optional name with
  | none => pure default
  | some text =>
    match index? text with
    | some index => pure index
    | none => do
      Traced.note (.notANumber name text default)
      return default

/-- An index that must be there and well formed. -/
def requiredIndex (params : Params) (name : String) : Except StepFault Nat := do
  let text ← params.required name
  match index? text with
  | some index => return index
  | none => throw (.invalidNumber name text)

end Params

end Remodel
