import Remodel.Markup.Construct
import Remodel.Markup.Reference
import Remodel.Table

/-!
# Attributes of tags

What follows the name in a tag: names with quoted values.

## Strategy

`attribute?` takes the first attribute off the text; the rest is shorter.  Attributes
are read from left to right, and the first fault counts.
-/

namespace Remodel.Markup

/-- The text without blanks at its front. -/
def skipBlanks (text : List Char) : List Char := text.dropWhile isBlank

/-- The first attribute of a text that begins with its name, with its value as it is
written, and what follows. -/
def attribute? : List Char → Option (List Char × List Char × List Char)
  | [] => none
  | first :: rest =>
    let ofName := fun (c : Char) => c ≠ '=' && !isBlank c
    match skipBlanks (rest.dropWhile ofName) with
    | '=' :: rest' =>
      match skipBlanks rest' with
      | quote :: value =>
        if (quote = '"' || quote = '\'') && value.contains quote then
          let (content, after) := upTo quote value
          some (first :: rest.takeWhile ofName, content, after)
        else none
      | [] => none
    | _ => none

/-- A name without what stands in it up to the first colon. -/
def localName (name : List Char) : List Char :=
  if name.contains ':' then (upTo ':' name).2 else name

theorem length_skipBlanks_le (text : List Char) : (skipBlanks text).length ≤ text.length :=
  (List.dropWhile_sublist _).length_le

theorem length_lt_of_attribute? {text name value rest : List Char}
    (h : attribute? text = some (name, value, rest)) : rest.length < text.length := by
  cases text with
  | nil => simp [attribute?] at h
  | cons first tail =>
    simp only [attribute?] at h
    split at h
    · rename_i rest' hequal
      split at h
      · rename_i quote written hquote
        split at h
        · have hname := length_skipBlanks_le
            (tail.dropWhile fun c => c ≠ '=' && !isBlank c)
          have htail := (List.dropWhile_sublist (l := tail)
            (fun c => decide (c ≠ '=') && !isBlank c)).length_le
          have hblanks := length_skipBlanks_le rest'
          have hvalue := length_upTo_le quote written
          rw [hequal] at hname
          rw [hquote] at hblanks
          simp_all
          omega
        · simp at h
      · simp at h
    · simp at h

/-- Reads the attributes of a tag that come after those with the given names; each comes
with its local name and its value. -/
def readAttributes (earlier : List (List Char)) (text : List Char) :
    Except MarkupFault (List (String × String)) :=
  if (skipBlanks text).isEmpty then .ok []
  else
    match _h : attribute? (skipBlanks text) with
    | none => .error .invalidAttribute
    | some (name, written, rest) =>
      if earlier.contains name then .error .invalidAttribute
      else
        match decode? written with
        | none => .error .invalidReference
        | some value => do
          let others ← readAttributes (name :: earlier) rest
          return (String.ofList (localName name), String.ofList value) :: others
termination_by text.length
decreasing_by
  exact Nat.lt_of_lt_of_le (length_lt_of_attribute? _h) (length_skipBlanks_le text)

/-- The attributes of a tag by local name, from the text behind the tag's name. -/
def attributes (text : String) : Except MarkupFault (List (String × String)) := do
  return Table.ofList (← readAttributes [] text.toList)

end Remodel.Markup
