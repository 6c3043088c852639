import Remodel.Markup.Attributes

/-!
# Events of markup

A document as a reader meets it: elements that open and close, and texts.  Every
closing tag names the element that was opened last.  A document may stop with a fault,
and what came before it is there all the same.  Elements may be left open at the end.

## Strategy

`readEvents` goes over the constructs and keeps the names of the open elements.
Attributes are not looked at here: only a reader that needs them meets their faults.
-/

namespace Remodel.Markup

/-- An opening tag: the local name of its element and the text behind the name. -/
structure Tag where
  name : String
  attributeText : String
  deriving Repr, DecidableEq, Inhabited

/-- Something that a reader of a document meets. -/
inductive Event
  | opening (tag : Tag)
  /-- An element without content. -/
  | empty (tag : Tag)
  | closing (name : String)
  | text (content : String)
  deriving Repr, DecidableEq, Inhabited

/-- The events of a document up to its end or its first fault. -/
structure Document where
  events : List Event
  fault : Option MarkupFault
  deriving Repr, DecidableEq, Inhabited

namespace Document

/-- The document that stops at once. -/
def broken (fault : MarkupFault) : Document := ⟨[], some fault⟩

/-- The document with one more event at its front. -/
def after (event : Event) (document : Document) : Document :=
  { document with events := event :: document.events }

end Document

/-- The full name of an element in the content of its tag. -/
def tagName (content : List Char) : List Char := content.takeWhile fun c => !isBlank c

/-- The tag with the given content. -/
def tagOf (content : List Char) : Tag :=
  let name := tagName content
  ⟨String.ofList (localName name), String.ofList (content.drop name.length)⟩

/-- The full name in a closing tag, without the blanks behind it. -/
def closingName (content : List Char) : List Char :=
  if content.all isBlank then content else (content.reverse.dropWhile isBlank).reverse

/-- The events of constructs inside elements with the given full names, innermost first. -/
def readEvents : List (List Char) → List Construct → Document
  | _, [] => ⟨[], none⟩
  | opened, construct :: rest =>
    match construct with
    | .text content =>
      match decode? content with
      | some content => (readEvents opened rest).after (.text (String.ofList content))
      | none => .broken .invalidReference
    | .literal content => (readEvents opened rest).after (.text (String.ofList content))
    | .tag content =>
      if content.getLast? = some '/' then
        (readEvents opened rest).after (.empty (tagOf content.dropLast))
      else
        (readEvents (tagName content :: opened) rest).after (.opening (tagOf content))
    | .closingTag content =>
      let name := closingName content
      match opened with
      | [] => .broken .endMismatch
      | expected :: outer =>
        if name = expected then
          (readEvents outer rest).after (.closing (String.ofList (localName name)))
        else .broken .endMismatch
    | .passedOver => readEvents opened rest
    | .broken fault => .broken fault

/-- The events of a text; a byte order mark at its front is passed over. -/
def Document.ofText (text : String) : Document :=
  let chars := match text.toList with
    | '\uFEFF' :: rest => rest
    | chars => chars
  readEvents [] (constructs chars)

end Remodel.Markup
