import Remodel.Unicode.GeneralCategory

/-!
# Quoted texts

A text between double quotes in which every character can be seen: quotes and
backslashes have a backslash before them, and characters that show nothing by
themselves are written by their numbers.
-/

namespace Remodel.Text

/-- The code points that show nothing by themselves: controls, separators, and marks on
other characters. -/
def unseen : Unicode.CodeSet :=
  Unicode.categorySet fun major minor =>
    major = 'C' || major = 'Z' || (major = 'M' && minor ≠ 'c')

/-- A character as it stands in a quoted text. -/
def visible (c : Char) : List Char :=
  match c with
  | ' ' => [c]
  | '\x00' => ['\\', '0']
  | '\t' => ['\\', 't']
  | '\n' => ['\\', 'n']
  | '\r' => ['\\', 'r']
  | '\\' => ['\\', c]
  | '\x22' => ['\\', c]
  | '\x27' => ['\\', c]
  | _ =>
    if unseen.contains c then
      ['\\', 'u', '\x7b'] ++ Nat.toDigits 16 c.toNat ++ ['\x7d']
    else [c]

/-- A text between quotes. -/
def quoted (text : String) : String :=
  String.ofList (['\x22'] ++ text.toList.flatMap visible ++ ['\x22'])

end Remodel.Text
