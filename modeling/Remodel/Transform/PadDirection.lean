import Remodel.Error
import Remodel.Text.Blank

/-!
# Pad directions

The side of a text that padding fills, and its name.
-/

namespace Remodel

/-- The side that padding fills. -/
inductive PadDirection
  | start
  | end_
  deriving Repr, DecidableEq, Inhabited

namespace PadDirection

/-- The name of a side. -/
def text : PadDirection → String
  | start => "Start"
  | end_ => "End"

/-- The side of a name, in any case and with blanks at its ends. -/
def parse (text : String) : Except StepFault PadDirection :=
  let name := String.ofList ((Text.trim text).toList.map Char.toLower)
  if name = "start" then .ok start
  else if name = "end" then .ok end_
  else .error (.invalidParameter (.unknownDirection text))

theorem parse_text (direction : PadDirection) : parse direction.text = .ok direction := by
  cases direction <;> rfl

end PadDirection

end Remodel
