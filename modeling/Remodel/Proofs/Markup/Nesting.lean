import Remodel.Markup.Event

/-!
# Nested elements

In the events of a document every closing tag names the element that was opened last
(`nested_ofText`).  An element without content is written with one tag or with two, and `parts`
makes two of one, so that only two kinds of tags are left.
-/

namespace Remodel.Markup

namespace Event

/-- The opening and the closing tag instead of the tag of an element without content. -/
def parts : Event → List Event
  | .empty tag => [.opening tag, .closing tag.name]
  | event => [event]

/-- Whether closing tags name the element that was opened last, inside elements with the given
names, innermost first, where no element is written with one tag. -/
def Nested : List String → List Event → Prop
  | _, [] => True
  | opened, .opening tag :: rest => Nested (tag.name :: opened) rest
  | opened, .closing name :: rest => ∃ outer, opened = name :: outer ∧ Nested outer rest
  | opened, .text _ :: rest => Nested opened rest
  | _, .empty _ :: _ => False

end Event

open Event

/-- The events of constructs are nested in the elements that are open. -/
theorem nested_readEvents (opened : List (List Char)) (constructs : List Construct) :
    Nested (opened.map fun name => String.ofList (localName name))
      ((readEvents opened constructs).events.flatMap parts) := by
  induction constructs generalizing opened with
  | nil => trivial
  | cons construct rest ih =>
      cases construct with
      | text content =>
          rw [readEvents]
          cases decode? content with
          | none => trivial
          | some content => exact ih opened
      | literal content => exact ih opened
      | tag content =>
          rw [readEvents]
          split
          · exact ⟨_, rfl, ih opened⟩
          · exact ih (tagName content :: opened)
      | closingTag content =>
          cases opened with
          | nil => trivial
          | cons expected outer =>
              rw [readEvents]
              by_cases hname : closingName content = expected
              · rw [if_pos hname, hname]
                exact ⟨_, rfl, ih outer⟩
              · rw [if_neg hname]
                trivial
      | passedOver => exact ih opened
      | broken fault => trivial

/-- In a document every closing tag names the element that was opened last. -/
theorem nested_ofText (text : String) :
    Nested [] ((Document.ofText text).events.flatMap parts) :=
  nested_readEvents [] _

end Remodel.Markup
