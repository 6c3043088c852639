import Remodel.Error

/-!
# Constructs of markup

What a document consists of, one construct after the other: texts, tags, literal
texts, and what has no meaning here, such as comments.

## Strategy

`construct?` takes the first construct off a text.  The rest is shorter, which
`length_lt_of_construct?` says, so that `constructs` comes to an end.
-/

namespace Remodel.Markup

/-- A part of a document, with the characters inside its marks. -/
inductive Construct
  | text (content : List Char)
  | tag (content : List Char)
  | closingTag (content : List Char)
  /-- A text in which no character is special. -/
  | literal (content : List Char)
  | passedOver
  | broken (fault : MarkupFault)
  deriving Repr, DecidableEq, Inhabited

/-- Whether a character is a blank between the parts of a tag. -/
def isBlank (c : Char) : Bool := c = ' ' || c = '\t' || c = '\n' || c = '\r'

/-- The characters before a mark, and those after it; there may be no mark. -/
def upTo (mark : Char) (text : List Char) : List Char × List Char :=
  (text.takeWhile (· ≠ mark), (text.dropWhile (· ≠ mark)).drop 1)

/-- The content of a tag, in which a bracket inside quotes does not close it, and what
follows; `quote` is the quotation mark that is open. -/
def tagContent? : Option Char → List Char → Option (List Char × List Char)
  | _, [] => none
  | none, c :: rest =>
    if c = '>' then some ([], rest)
    else
      let quote := if c = '"' || c = '\'' then some c else none
      (tagContent? quote rest).map fun split => (c :: split.1, split.2)
  | some quote, c :: rest =>
    let quote := if c = quote then none else some quote
    (tagContent? quote rest).map fun split => (c :: split.1, split.2)

/-- The characters before the first closing bracket at which a test accepts them, and
what follows; `before` are the characters already passed, in reverse order. -/
def bracketed? (accept : List Char → Bool) (before : List Char) :
    List Char → Option (List Char × List Char)
  | [] => none
  | c :: rest =>
    if c = '>' && accept before then some (before.reverse, rest)
    else bracketed? accept (c :: before) rest

/-- Whether a comment ends after the characters, given in reverse order. -/
def endsComment (before : List Char) : Bool :=
  4 ≤ before.length && ['-', '-'].isPrefixOf before

/-- Whether a literal text ends after the characters, given in reverse order. -/
def endsLiteral (before : List Char) : Bool := [']', ']'].isPrefixOf before

/-- Whether a document type ends after the characters: every bracket in them is closed. -/
def endsDoctype (before : List Char) : Bool := before.count '<' = before.count '>'

/-- Whether a text begins with a keyword, given in lower case, in any case. -/
def beginsWith (keyword : String) (text : List Char) : Bool :=
  (text.take keyword.length).map Char.toLower = keyword.toList

/-- The construct with the given content between an exclamation mark and the closing
bracket. -/
def markedConstruct (content : List Char) : Construct :=
  if beginsWith "--" content then .passedOver
  else if beginsWith "[cdata[" content then
    .literal ((content.drop 7).take (content.length - 9))
  else if beginsWith "doctype" content then
    if (content.drop 7).all isBlank then .broken .emptyDoctype else .passedOver
  else .broken .unexpectedEnd

/-- The construct that begins with an exclamation mark, and what follows. -/
def markedAt (text : List Char) : Construct × List Char :=
  let ending? : Option (List Char → Bool) :=
    match text with
    | '-' :: _ => some endsComment
    | '[' :: _ => some endsLiteral
    | 'D' :: _ => some endsDoctype
    | 'd' :: _ => some endsDoctype
    | _ => none
  match ending? with
  | none => (.broken (if text.isEmpty then .unexpectedEnd else .unexpectedBang), [])
  | some accept =>
    match bracketed? accept [] text with
    | some (content, rest) => (markedConstruct content, rest)
    | none => (.broken .unexpectedEnd, [])

/-- The construct with the given content between a question mark and the closing
bracket: it must end with another question mark. -/
def instruction (content : List Char) : Construct :=
  if 2 ≤ content.length && content.getLast? = some '?' then .passedOver
  else .broken .unexpectedEnd

/-- The construct that begins with an opening bracket, and what follows. -/
def constructAt : List Char → Construct × List Char
  | '!' :: rest => markedAt rest
  | '/' :: rest =>
    let (content, rest) := upTo '>' rest
    (.closingTag content, rest)
  | '?' :: rest =>
    let (content, rest) := upTo '>' rest
    (instruction content, rest)
  | rest =>
    match tagContent? none rest with
    | some (content, rest) => (.tag content, rest)
    | none => (.broken .unexpectedEnd, [])

/-- The first construct of a text, and what follows; none in the empty text and after a
bracket that nothing follows. -/
def construct? : List Char → Option (Construct × List Char)
  | [] => none
  | ['<'] => none
  | '<' :: rest => some (constructAt rest)
  | text => some (.text (text.takeWhile (· ≠ '<')), text.dropWhile (· ≠ '<'))

theorem length_upTo_le (mark : Char) (text : List Char) :
    (upTo mark text).2.length ≤ text.length := by
  have := (List.dropWhile_sublist (l := text) (fun c => decide (c ≠ mark))).length_le
  simp only [upTo, List.length_drop]
  omega

theorem length_tagContent? {quote : Option Char} {text content rest : List Char}
    (h : tagContent? quote text = some (content, rest)) : rest.length ≤ text.length := by
  induction text generalizing quote content rest with
  | nil => simp [tagContent?] at h
  | cons c text ih =>
    cases quote with
    | none =>
      simp only [tagContent?] at h
      split at h
      · simp_all
      · obtain ⟨⟨content, rest⟩, hsplit, heq⟩ := Option.map_eq_some_iff.1 h
        obtain ⟨_, rfl⟩ := Prod.mk.inj heq
        exact Nat.le_succ_of_le (ih hsplit)
    | some quote =>
      obtain ⟨⟨content, rest⟩, hsplit, heq⟩ := Option.map_eq_some_iff.1 h
      obtain ⟨_, rfl⟩ := Prod.mk.inj heq
      exact Nat.le_succ_of_le (ih hsplit)

theorem length_bracketed? {accept : List Char → Bool} {before text content rest : List Char}
    (h : bracketed? accept before text = some (content, rest)) : rest.length ≤ text.length := by
  induction text generalizing before with
  | nil => simp [bracketed?] at h
  | cons c text ih =>
    simp only [bracketed?] at h
    split at h
    · simp_all
    · exact Nat.le_succ_of_le (ih h)

theorem length_markedAt_le (text : List Char) : (markedAt text).2.length ≤ text.length := by
  simp only [markedAt]
  split
  · simp
  · split
    · rename_i h
      exact length_bracketed? h
    · simp

theorem length_constructAt_le (text : List Char) : (constructAt text).2.length ≤ text.length := by
  unfold constructAt
  split
  · exact Nat.le_succ_of_le (length_markedAt_le _)
  · exact Nat.le_succ_of_le (length_upTo_le _ _)
  · exact Nat.le_succ_of_le (length_upTo_le _ _)
  · split
    · rename_i h
      exact length_tagContent? h
    · simp

theorem length_lt_of_construct? {text rest : List Char} {construct : Construct}
    (h : construct? text = some (construct, rest)) : rest.length < text.length := by
  unfold construct? at h
  split at h
  · simp at h
  · simp at h
  · rename_i tail _
    have hle := length_constructAt_le tail
    rw [Option.some.inj h] at hle
    exact Nat.lt_succ_of_le hle
  · rename_i hnil _ hbracket
    cases text with
    | nil => exact absurd rfl hnil
    | cons c tail =>
      have hc : c ≠ '<' := fun hc => hbracket tail (by rw [hc])
      have hle := (List.dropWhile_sublist (l := tail) (fun c => decide (c ≠ '<'))).length_le
      obtain ⟨_, rfl⟩ := Prod.mk.inj (Option.some.inj h)
      rw [List.dropWhile_cons_of_pos (by simpa using hc)]
      exact Nat.lt_succ_of_le hle

/-- The constructs of a text. -/
def constructs (text : List Char) : List Construct :=
  match _h : construct? text with
  | none => []
  | some (construct, rest) => construct :: constructs rest
termination_by text.length
decreasing_by exact length_lt_of_construct? _h

end Remodel.Markup
