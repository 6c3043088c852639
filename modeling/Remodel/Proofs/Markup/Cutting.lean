import Mathlib.Data.List.TakeWhile
import Remodel.Proofs.Markup.Delivery
import Remodel.Proofs.Markup.Nesting

/-!
# Documents that are cut off

What a reader meets in the beginning of a document is what it meets in the document, up to the place
where it is cut (`events_cut`): only the text that the cut goes through is met with other
characters.  A cut through a tag is a fault, except that a closing tag needs no bracket at the end
of a document, so that one with its whole name counts.

`unclosed` are the elements that are open at the end of a text.

## Strategy

A construct that ends before the cut is the same with what follows it, and the other ones are the
last ones of the beginning (`construct?_append`).  From there on the events are compared construct
by construct, with the same elements open in both.
-/

namespace Remodel.Markup

/-! ## Constructs -/

section Constructs

variable {text after content rest : List Char} {construct : Construct}

theorem tagContent?_append {quote : Option Char}
    (h : tagContent? quote text = some (content, after)) (rest : List Char) :
    tagContent? quote (text ++ rest) = some (content, after ++ rest) := by
  induction text generalizing quote content with
  | nil => cases quote <;> cases h
  | cons c tail ih =>
      cases quote with
      | none =>
          rw [tagContent?] at h
          rw [List.cons_append, tagContent?]
          split at h
          · obtain ⟨rfl, rfl⟩ := Prod.mk.inj (Option.some.inj h)
            simp [*]
          · obtain ⟨⟨inner, left⟩, hinner, heq⟩ := Option.map_eq_some_iff.mp h
            obtain ⟨rfl, rfl⟩ := Prod.mk.inj heq
            rw [if_neg ‹_›]
            exact Option.map_eq_some_iff.mpr ⟨_, ih hinner, rfl⟩
      | some quote =>
          obtain ⟨⟨inner, left⟩, hinner, heq⟩ := Option.map_eq_some_iff.mp h
          obtain ⟨rfl, rfl⟩ := Prod.mk.inj heq
          exact Option.map_eq_some_iff.mpr ⟨_, ih hinner, rfl⟩

theorem bracketed?_append {accept : List Char → Bool} {before : List Char}
    (h : bracketed? accept before text = some (content, after)) (rest : List Char) :
    bracketed? accept before (text ++ rest) = some (content, after ++ rest) := by
  induction text generalizing before with
  | nil => cases h
  | cons c tail ih =>
      rw [bracketed?] at h
      rw [List.cons_append, bracketed?]
      split at h
      · obtain ⟨rfl, rfl⟩ := Prod.mk.inj (Option.some.inj h)
        rw [if_pos ‹_›]
      · rw [if_neg ‹_›]
        exact ih h

theorem takeWhile_ne_append {mark : Char} {before : List Char} (h : mark ∉ before)
    (after : List Char) :
    (before ++ mark :: after).takeWhile (· ≠ mark) = before ∧
      (before ++ mark :: after).dropWhile (· ≠ mark) = mark :: after := by
  have hbefore : ∀ c ∈ before, decide (c ≠ mark) = true := fun c hc =>
    decide_eq_true fun heq => h (heq ▸ hc)
  rw [List.takeWhile_append_of_pos hbefore, List.dropWhile_append_of_pos hbefore]
  simp

theorem dropWhile_ne_eq_nil {mark : Char} (h : mark ∉ text) : text.dropWhile (· ≠ mark) = [] :=
  List.dropWhile_eq_nil_iff.mpr fun _ hc => decide_eq_true fun heq => h (heq ▸ hc)

/-- A mark is found before the cut, or there is none and nothing is left. -/
theorem upTo_append_or (mark : Char) (text rest : List Char) :
    upTo mark (text ++ rest) = ((upTo mark text).1, (upTo mark text).2 ++ rest) ∨
      (upTo mark text).2 = [] := by
  by_cases hmark : mark ∈ text
  · obtain ⟨before, after, rfl, hbefore⟩ := List.eq_append_cons_of_mem hmark
    refine Or.inl ?_
    rw [List.append_assoc, List.cons_append, upTo_append hbefore, upTo_append hbefore]
  · refine Or.inr ?_
    rw [upTo, dropWhile_ne_eq_nil hmark]
    rfl

theorem markedAt_cons (c : Char) : ∃ ending? : Option (List Char → Bool), ∀ tail,
    markedAt (c :: tail) =
      match ending? with
      | none => (.broken .unexpectedBang, [])
      | some accept =>
        match bracketed? accept [] (c :: tail) with
        | some (content, rest) => (markedConstruct content, rest)
        | none => (.broken .unexpectedEnd, []) := by
  by_cases hcomment : c = '-'
  · exact ⟨some endsComment, fun tail => by rw [hcomment]; rfl⟩
  by_cases hliteral : c = '['
  · exact ⟨some endsLiteral, fun tail => by rw [hliteral]; rfl⟩
  by_cases hupper : c = 'D'
  · exact ⟨some endsDoctype, fun tail => by rw [hupper]; rfl⟩
  by_cases hlower : c = 'd'
  · exact ⟨some endsDoctype, fun tail => by rw [hlower]; rfl⟩
  · exact ⟨none, fun tail => by simp [markedAt, *]⟩

theorem markedAt_append (text rest : List Char) :
    markedAt (text ++ rest) = ((markedAt text).1, (markedAt text).2 ++ rest) ∨
      (markedAt text).2 = [] ∧ ∃ fault, (markedAt text).1 = .broken fault := by
  cases text with
  | nil => exact Or.inr ⟨rfl, _, rfl⟩
  | cons c tail =>
      obtain ⟨ending?, hmarked⟩ := markedAt_cons c
      rw [List.cons_append, hmarked, hmarked]
      cases ending? with
      | none => exact Or.inr ⟨rfl, _, rfl⟩
      | some accept =>
          dsimp only
          cases hcontent : bracketed? accept [] (c :: tail) with
          | none => exact Or.inr ⟨rfl, _, rfl⟩
          | some split =>
              have hwhole := bracketed?_append hcontent rest
              rw [List.cons_append] at hwhole
              rw [hwhole]
              exact Or.inl rfl

/-- What a cut may make of the first construct of a text. -/
def CutShort (whole : List Char) : Construct → Prop
  | .text _ => True
  | .passedOver => True
  | .broken _ => True
  | .closingTag _ => ∃ content rest, construct? whole = some (.closingTag content, rest)
  | .tag _ => False
  | .literal _ => False

theorem constructAt_append (hne : text ≠ []) (rest : List Char) :
    constructAt (text ++ rest) = ((constructAt text).1, (constructAt text).2 ++ rest) ∨
      (constructAt text).2 = [] ∧ CutShort ('<' :: (text ++ rest)) (constructAt text).1 := by
  obtain ⟨c, tail, rfl⟩ := List.exists_cons_of_ne_nil hne
  by_cases hmark : c = '!'
  · subst hmark
    rcases markedAt_append tail rest with hsame | ⟨hend, fault, hbroken⟩
    · exact Or.inl hsame
    · refine Or.inr ⟨hend, ?_⟩
      rw [show (constructAt ('!' :: tail)).1 = .broken fault from hbroken]
      trivial
  by_cases hslash : c = '/'
  · subst hslash
    rcases upTo_append_or '>' tail rest with hsame | hend
    · exact Or.inl (congrArg (fun split => (Construct.closingTag split.1, split.2)) hsame)
    · exact Or.inr ⟨hend, (upTo '>' (tail ++ rest)).1, (upTo '>' (tail ++ rest)).2, rfl⟩
  by_cases hquestion : c = '?'
  · subst hquestion
    rcases upTo_append_or '>' tail rest with hsame | hend
    · exact Or.inl (congrArg (fun split => (instruction split.1, split.2)) hsame)
    · refine Or.inr ⟨hend, ?_⟩
      change CutShort _ (instruction (upTo '>' tail).1)
      unfold instruction
      split <;> trivial
  · have htag : ∀ tail, constructAt (c :: tail) =
        match tagContent? none (c :: tail) with
        | some (content, rest) => (.tag content, rest)
        | none => (.broken .unexpectedEnd, []) := by
      intro tail
      unfold constructAt
      split
      case h_1 heq => exact absurd (List.cons.inj heq).1 hmark
      case h_2 heq => exact absurd (List.cons.inj heq).1 hslash
      case h_3 heq => exact absurd (List.cons.inj heq).1 hquestion
      case h_4 => rfl
    rw [List.cons_append, htag, htag]
    cases hcontent : tagContent? none (c :: tail) with
    | none => exact Or.inr ⟨rfl, trivial⟩
    | some split =>
        have hwhole := tagContent?_append hcontent rest
        rw [List.cons_append] at hwhole
        rw [hwhole]
        exact Or.inl rfl

/-- The first construct ends before the cut, or it is all that is there and may be cut short. -/
theorem construct?_append (h : construct? text = some (construct, after)) (rest : List Char) :
    construct? (text ++ rest) = some (construct, after ++ rest) ∨
      after = [] ∧ CutShort (text ++ rest) construct := by
  cases text with
  | nil => cases h
  | cons c tail =>
      by_cases hbracket : c = '<'
      · subst hbracket
        cases tail with
        | nil => cases h
        | cons d tail =>
            obtain ⟨rfl, rfl⟩ : (constructAt (d :: tail)).1 = construct ∧
                (constructAt (d :: tail)).2 = after := Prod.mk.inj (Option.some.inj h)
            exact (constructAt_append (List.cons_ne_nil d tail) rest).imp_left (congrArg some)
      · have htext : ∀ tail, construct? (c :: tail) = some
            (.text ((c :: tail).takeWhile (· ≠ '<')), (c :: tail).dropWhile (· ≠ '<')) := by
          intro tail
          unfold construct?
          split
          case h_1 heq => cases heq
          case h_2 heq => exact absurd (List.cons.inj heq).1 hbracket
          case h_3 heq => exact absurd (List.cons.inj heq).1 hbracket
          case h_4 => rfl
        rw [htext] at h
        obtain ⟨rfl, rfl⟩ := Prod.mk.inj (Option.some.inj h)
        by_cases hmem : '<' ∈ c :: tail
        · obtain ⟨before, left, hsplit, hbefore⟩ := List.eq_append_cons_of_mem hmem
          refine Or.inl ?_
          rw [List.cons_append, htext, ← List.cons_append, hsplit, List.append_assoc,
            List.cons_append, (takeWhile_ne_append hbefore _).1, (takeWhile_ne_append hbefore _).2,
            (takeWhile_ne_append hbefore _).1, (takeWhile_ne_append hbefore _).2, List.cons_append]
        · exact Or.inr ⟨dropWhile_ne_eq_nil hmem, trivial⟩

end Constructs

/-! ## Events -/

section Events

variable {opened : List (List Char)} {front rest : List Char}

theorem constructs_of_none (h : construct? front = none) : constructs front = [] := by
  rw [constructs]
  split
  · rfl
  · rename_i hsome
    rw [h] at hsome
    cases hsome

theorem constructs_nil : constructs [] = [] := constructs_of_none rfl

/-- The first construct is a fault, or gives some events and leaves some elements open. -/
theorem readEvents_cons (opened : List (List Char)) (construct : Construct) :
    (∃ fault, ∀ rest, readEvents opened (construct :: rest) = .broken fault) ∨
      ∃ opened' events, ∀ rest, readEvents opened (construct :: rest) =
        (readEvents opened' rest).afterAll events := by
  cases construct with
  | text content =>
      simp only [readEvents]
      cases decode? content with
      | none => exact Or.inl ⟨_, fun _ => rfl⟩
      | some content => exact Or.inr ⟨opened, [.text (String.ofList content)], fun _ => rfl⟩
  | literal content => exact Or.inr ⟨opened, [.text (String.ofList content)], fun _ => rfl⟩
  | tag content =>
      simp only [readEvents]
      split
      · exact Or.inr ⟨opened, [.empty (tagOf content.dropLast)], fun _ => rfl⟩
      · exact Or.inr ⟨tagName content :: opened, [.opening (tagOf content)], fun _ => rfl⟩
  | closingTag content =>
      cases opened with
      | nil => exact Or.inl ⟨_, fun _ => rfl⟩
      | cons expected outer =>
          simp only [readEvents]
          split
          · exact Or.inr ⟨outer, [.closing (String.ofList (localName (closingName content)))],
              fun _ => rfl⟩
          · exact Or.inl ⟨_, fun _ => rfl⟩
  | passedOver => exact Or.inr ⟨opened, [], fun _ => rfl⟩
  | broken fault => exact Or.inl ⟨fault, fun _ => rfl⟩

/-- A closing tag that is no fault closes the element that was opened last. -/
theorem readEvents_closingTag {content : List Char} {constructs : List Construct}
    (h : (readEvents opened (.closingTag content :: constructs)).fault = none) :
    ∃ expected outer, opened = expected :: outer ∧
      (readEvents opened (.closingTag content :: constructs)).events =
        .closing (String.ofList (localName expected)) :: (readEvents outer constructs).events := by
  cases opened with
  | nil => cases h
  | cons expected outer =>
      refine ⟨expected, outer, rfl, ?_⟩
      rw [readEvents] at h ⊢
      by_cases hname : closingName content = expected
      · rw [if_pos hname, hname]
        rfl
      · rw [if_neg hname] at h
        cases h

/-- The events of a beginning are those of the whole, apart from a last text. -/
theorem readEvents_cut (hfront : (readEvents opened (constructs front)).fault = none)
    (hwhole : (readEvents opened (constructs (front ++ rest))).fault = none) :
    ∃ events tail more, (readEvents opened (constructs front)).events = events ++ tail ∧
      (readEvents opened (constructs (front ++ rest))).events = events ++ more ∧
      (tail = [] ∨ ∃ content, tail = [.text content]) := by
  induction front using constructs.induct generalizing opened with
  | case1 front hnone =>
      rw [constructs_of_none hnone]
      exact ⟨[], [], _, rfl, rfl, Or.inl rfl⟩
  | case2 front construct after hsome ih =>
      rw [constructs_of_construct? hsome] at hfront ⊢
      rcases construct?_append hsome rest with hsame | ⟨rfl, hcut⟩
      · rw [constructs_of_construct? hsame] at hwhole ⊢
        rcases readEvents_cons opened construct with ⟨fault, hbroken⟩ | ⟨opened', first, hevents⟩
        · rw [hbroken] at hfront
          cases hfront
        · rw [hevents] at hfront hwhole
          obtain ⟨events, tail, more, hbefore, hall, htail⟩ := ih hfront hwhole
          refine ⟨first ++ events, tail, more, ?_, ?_, htail⟩
          · rw [hevents, Document.afterAll, hbefore, List.append_assoc]
          · rw [hevents, Document.afterAll, hall, List.append_assoc]
      · -- the construct is the last one of the beginning
        rw [constructs_nil] at hfront ⊢
        cases construct with
        | text content =>
            rw [readEvents] at hfront ⊢
            cases hdecode : decode? content with
            | none =>
                rw [hdecode] at hfront
                cases hfront
            | some content =>
                exact ⟨[], [.text (String.ofList content)], _, rfl, rfl, Or.inr ⟨_, rfl⟩⟩
        | passedOver => exact ⟨[], [], _, rfl, rfl, Or.inl rfl⟩
        | broken fault => cases hfront
        | tag content => exact hcut.elim
        | literal content => exact hcut.elim
        | closingTag content =>
            obtain ⟨content', left, hclosing⟩ := hcut
            rw [constructs_of_construct? hclosing] at hwhole ⊢
            -- both tags close the same element
            obtain ⟨expected, outer, rfl, hevents⟩ := readEvents_closingTag hfront
            obtain ⟨_, _, hsame, hevents'⟩ := readEvents_closingTag hwhole
            obtain ⟨rfl, rfl⟩ := List.cons.inj hsame
            exact ⟨[.closing (String.ofList (localName expected))], [], _, hevents, hevents',
              Or.inl rfl⟩

/-- The characters of a document behind the mark that may stand in front of it. -/
def withoutMark : List Char → List Char
  | '\uFEFF' :: rest => rest
  | chars => chars

theorem ofText_eq (text : String) :
    Document.ofText text = readEvents [] (constructs (withoutMark text.toList)) := rfl

theorem withoutMark_append (hne : front ≠ []) (rest : List Char) :
    withoutMark (front ++ rest) = withoutMark front ++ rest := by
  obtain ⟨c, tail, rfl⟩ := List.exists_cons_of_ne_nil hne
  by_cases hmark : c = '\uFEFF'
  · subst hmark
    rfl
  · have hother : ∀ tail, withoutMark (c :: tail) = c :: tail := by
      intro tail
      rw [withoutMark]
      exact fun _ heq => hmark (List.cons.inj heq).1
    rw [List.cons_append, hother, hother, List.cons_append]

/-- What is met in the beginning of a text that has no fault is met in the text; only the text in
which the beginning ends may be met with other characters. -/
theorem events_cut {front rest : String} (hfront : (Document.ofText front).fault = none)
    (hwhole : (Document.ofText (front ++ rest)).fault = none) :
    ∃ events tail more, (Document.ofText front).events = events ++ tail ∧
      (Document.ofText (front ++ rest)).events = events ++ more ∧
      (tail = [] ∨ ∃ content, tail = [.text content]) := by
  by_cases hempty : front.toList = []
  · have hnothing : Document.ofText front = ⟨[], none⟩ := by
      rw [ofText_eq, hempty, show withoutMark [] = [] from rfl, constructs_nil]
      rfl
    exact ⟨[], [], _, congrArg Document.events hnothing, rfl, Or.inl rfl⟩
  · have hofText : Document.ofText (front ++ rest) =
        readEvents [] (constructs (withoutMark front.toList ++ rest.toList)) := by
      rw [ofText_eq, String.toList_append, withoutMark_append hempty]
    rw [hofText] at hwhole ⊢
    exact readEvents_cut hfront hwhole

end Events

/-! ## Open elements -/

/-- The names of the elements that are open after events, innermost first. -/
def openAfter : List String → List Event → List String
  | opened, [] => opened
  | opened, .opening tag :: rest => openAfter (tag.name :: opened) rest
  | opened, .closing _ :: rest => openAfter opened.tail rest
  | opened, .empty _ :: rest => openAfter opened rest
  | opened, .text _ :: rest => openAfter opened rest

/-- The names of the elements that are open at the end of a text, innermost first. -/
def unclosed (text : String) : List String := openAfter [] (Document.ofText text).events

/-- Nested events are nested up to every place, and from there on in what is open there. -/
theorem nested_append {opened : List String} {events more : List Event}
    (h : Event.Nested opened (events ++ more)) :
    Event.Nested opened events ∧ Event.Nested (openAfter opened events) more := by
  induction events generalizing opened with
  | nil => exact ⟨trivial, h⟩
  | cons event rest ih =>
      cases event with
      | opening tag => exact ih h
      | empty tag => exact h.elim
      | text content => exact ih h
      | closing name =>
          obtain ⟨outer, rfl, h⟩ := h
          obtain ⟨hrest, hmore⟩ := ih h
          exact ⟨⟨outer, rfl, hrest⟩, hmore⟩

theorem openAfter_parts (opened : List String) (events : List Event) :
    openAfter opened (events.flatMap Event.parts) = openAfter opened events := by
  induction events generalizing opened with
  | nil => rfl
  | cons event rest ih => cases event <;> exact ih _

end Remodel.Markup
