/-!
# Parts of a text between delimiters

Cutting a text at every occurrence of a literal delimiter, left to right and
without overlap.  The empty delimiter occurs before every character and at the
end, so that it cuts off an empty part at both ends.

## Strategy

`cut` walks the text once.  Its counter holds how many characters of an
occurrence are still to be passed over, which makes the recursion structural.
-/

namespace Remodel.Text

/-- Puts a character in front of the first part. -/
def consHead (c : Char) : List (List Char) → List (List Char)
  | [] => [[c]]
  | part :: parts => (c :: part) :: parts

/-- Cuts at a delimiter that is not empty; `skip` characters of an occurrence are
passed over first. -/
def cut (delimiter : List Char) : Nat → List Char → List (List Char)
  | _, [] => [[]]
  | skip + 1, _ :: rest => cut delimiter skip rest
  | 0, c :: rest =>
    if delimiter.isPrefixOf (c :: rest) then
      [] :: cut delimiter (delimiter.length - 1) rest
    else
      consHead c (cut delimiter 0 rest)

/-- The parts of a text between the occurrences of a delimiter. -/
def partsOf (delimiter text : List Char) : List (List Char) :=
  match delimiter with
  | [] => [] :: (text.map fun c => [c]) ++ [[]]
  | _ => cut delimiter 0 text

/-- The parts of a text between the occurrences of a delimiter. -/
def parts (delimiter text : String) : List String :=
  (partsOf delimiter.toList text.toList).map String.ofList

/-- Texts joined by a separator. -/
def joinParts (separator : List Char) : List (List Char) → List Char
  | [] => []
  | [part] => part
  | part :: rest => part ++ separator ++ joinParts separator rest

/-- Texts joined by a separator. -/
def join (separator : String) (texts : List String) : String :=
  String.ofList (joinParts separator.toList (texts.map String.toList))

/-- Every occurrence of `old` replaced by `new`. -/
def replace (old new text : String) : String :=
  join new (parts old text)

theorem cut_ne_nil (delimiter : List Char) (skip : Nat) (text : List Char) :
    cut delimiter skip text ≠ [] := by
  induction text generalizing skip with
  | nil => simp [cut]
  | cons c rest ih =>
    cases skip with
    | succ skip => simpa [cut] using ih skip
    | zero =>
      simp only [cut]
      split
      · simp
      · cases h : cut delimiter 0 rest with
        | nil => exact absurd h (ih 0)
        | cons part parts => simp [consHead]

end Remodel.Text
