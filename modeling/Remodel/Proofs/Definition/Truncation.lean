import Remodel.Proofs.Definition.OwnSteps
import Remodel.Proofs.Markup.Cutting

/-!
# Definitions that are cut off

A reader only remembers that the element of a description is open.  Inside such an element every cut
is noticed; the elements that group others and those of parameters are forgotten, and a definition
that ends inside them is read as if they were closed.  So a text that is read may leave such
elements open, and its beginning is read as well, with the descriptions that are complete in it,
unless the cut is inside the element of a description (`read_beginning`).

## Strategy

`Encloses` relates what a reader has open to the elements that are open in the document.  One event
keeps it so, and a description is finished exactly where its element closes (`IsInside.takeAll`).  A
beginning that has no fault has the events of the whole text up to the cut (`Markup.events_cut`), so
that a reader that takes those of the whole gets through it.
-/

namespace Remodel.Definition

open Markup (Event Tag Document unclosed openAfter)

/-- Whether a reader keeps nothing of an element that would show that it is open. -/
def Element.isForgotten : Element → Bool
  | group => true
  | param => true
  | _ => false

/-- Whether an event completes a description. -/
def completes : Event → Bool
  | .closing name => Element.named name = .transformation
  | _ => false

/-- How many descriptions are complete at the end of a text. -/
def completed (text : String) : Nat :=
  ((Document.ofText text).events.flatMap Event.parts).countP completes

/-! ## Open elements -/

/-- Which elements may be open around a reader that has a description open or not, and an operation
open or not; their names come innermost first. -/
inductive Encloses : Bool → Bool → List String → Prop
  | nothing : Encloses false false []
  | forgotten {active operation : Bool} {name : String} {opened : List String}
      (hname : (Element.named name).isForgotten = true) (h : Encloses active operation opened) :
      Encloses active operation (name :: opened)
  | transformation {name : String} {opened : List String}
      (hname : Element.named name = .transformation) (h : Encloses false false opened) :
      Encloses true false (name :: opened)
  | operation {name : String} {opened : List String}
      (hname : (Element.named name).isOperation = true) (h : Encloses true false opened) :
      Encloses true true (name :: opened)
  | capture {name : String} {captured : CaptureElement} {opened : List String}
      (hname : Element.named name = .capture captured) (h : Encloses true true opened) :
      Encloses true true (name :: opened)

section Encloses

variable {active operation : Bool} {opened : List String} {name : String}

/-- Operations are open inside descriptions only. -/
theorem Encloses.active_of_operation (h : Encloses active operation opened)
    (hoperation : operation = true) : active = true := by
  induction h with
  | nothing => exact hoperation
  | forgotten _ _ ih => exact ih hoperation
  | transformation => rfl
  | operation => rfl
  | capture => rfl

/-- A description is open while its element is. -/
theorem Encloses.active_iff (h : Encloses active operation opened) :
    active = true ↔ ∃ other ∈ opened, Element.named other = .transformation := by
  induction h with
  | nothing => simp
  | @forgotten _ _ name _ hname _ ih =>
      have hother : Element.named name ≠ .transformation := by
        intro heq
        rw [heq] at hname
        cases hname
      simp [ih, hother]
  | transformation hname => simp [hname]
  | operation _ _ ih =>
      obtain ⟨other, hother, htransformation⟩ := ih.mp rfl
      exact iff_of_true rfl ⟨other, List.mem_cons_of_mem _ hother, htransformation⟩
  | capture _ _ ih =>
      obtain ⟨other, hother, htransformation⟩ := ih.mp rfl
      exact iff_of_true rfl ⟨other, List.mem_cons_of_mem _ hother, htransformation⟩

/-- Outside of descriptions all open elements are forgotten. -/
theorem Encloses.isForgotten (h : Encloses active operation opened) (hactive : active = false) :
    ∀ other ∈ opened, (Element.named other).isForgotten = true := by
  induction h with
  | nothing => simp
  | forgotten hname _ ih => exact List.forall_mem_cons.mpr ⟨hname, ih hactive⟩
  | transformation => cases hactive
  | operation => cases hactive
  | capture => cases hactive

/-- What is open around the innermost element. -/
theorem Encloses.outer (h : Encloses active operation (name :: opened)) :
    match Element.named name with
    | .group | .param | .capture _ => Encloses active operation opened
    | .transformation => operation = false ∧ Encloses false false opened
    | .operation _ => operation = true ∧ Encloses true false opened := by
  cases h with
  | forgotten hname h =>
      cases helement : Element.named name with
      | group => exact h
      | param => exact h
      | transformation => simp [helement, Element.isForgotten] at hname
      | capture captured => exact h
      | operation other => simp [helement, Element.isForgotten] at hname
  | transformation hname h =>
      rw [hname]
      exact ⟨rfl, h⟩
  | operation hname h =>
      cases helement : Element.named name with
      | operation other => exact ⟨rfl, h⟩
      | _ => simp [helement, Element.isOperation] at hname
  | capture hname h =>
      rw [hname]
      exact h

end Encloses

/-! ## Readers inside elements -/

namespace Reader

variable {types : TypeTable} {opened : List String} {reader next : Reader}

/-- Whether a reader may be inside elements with the given names. -/
def IsInside (reader : Reader) (opened : List String) : Prop :=
  Encloses reader.active.isSome reader.operation.isSome opened

theorem isInside_iff {active operation : Bool} (hactive : reader.active.isSome = active)
    (hoperation : reader.operation.isSome = operation) :
    reader.IsInside opened ↔ Encloses active operation opened := by
  rw [IsInside, hactive, hoperation]

/-- What an opening tag leads to; no description is finished by it. -/
theorem IsInside.opening (h : reader.IsInside opened) {tag : Tag}
    (hnext : reader.opening types tag = .ok next) :
    next.IsInside (tag.name :: opened) ∧ next.finished = reader.finished := by
  unfold Reader.opening at hnext
  cases helement : Element.named tag.name with
  | group =>
      rw [helement] at hnext
      obtain rfl := Except.ok.inj hnext
      exact ⟨.forgotten (by rw [helement]; rfl) h, rfl⟩
  | param =>
      rw [helement] at hnext
      simp only [openParam_eq] at hnext
      obtain ⟨entry, -, rfl⟩ := except_map_eq_ok_iff.mp hnext
      exact ⟨.forgotten (by rw [helement]; rfl) h, rfl⟩
  | transformation =>
      rw [helement] at hnext
      obtain ⟨hactive, description, -, rfl⟩ := exists_of_openTransformation hnext
      have hoperation : reader.operation.isSome = false := by
        rw [Bool.eq_false_iff]
        intro hsome
        have hinside := Encloses.active_of_operation h hsome
        rw [hactive] at hinside
        cases hinside
      rw [isInside_iff (by rw [hactive]) hoperation] at h
      refine ⟨?_, rfl⟩
      change Encloses true reader.operation.isSome _
      rw [hoperation]
      exact .transformation helement h
  | capture captured =>
      rw [helement] at hnext
      dsimp only [openCapture] at hnext
      split at hnext
      · rename_i hoperation
        obtain rfl := Except.ok.inj hnext
        have hactive := Encloses.active_of_operation h hoperation
        refine ⟨?_, rfl⟩
        change Encloses reader.active.isSome reader.operation.isSome _
        rw [isInside_iff hactive hoperation] at h
        rw [hactive, hoperation]
        exact .capture helement h
      · cases hnext
  | operation name =>
      rw [helement] at hnext
      have hoperation := operation_eq_none_of_openOperation hnext
      obtain ⟨description, operation, hactive, -, rfl⟩ := exists_of_openOperation hnext
      have hsome : reader.active.isSome = true := by rw [hactive]; rfl
      rw [isInside_iff hsome (by rw [hoperation])] at h
      refine ⟨?_, rfl⟩
      change Encloses reader.active.isSome true _
      rw [hsome]
      exact .operation (by rw [helement]; rfl) h

theorem text_eq (reader : Reader) (content : String) :
    (reader.text content).active = reader.active ∧
      (reader.text content).operation = reader.operation ∧
      (reader.text content).finished = reader.finished := by
  unfold text
  split <;> exact ⟨rfl, rfl, rfl⟩

theorem closeCapture_eq (reader : Reader) : reader.closeCapture.active = reader.active ∧
    reader.closeCapture.operation = reader.operation ∧
    reader.closeCapture.finished = reader.finished := by
  unfold closeCapture
  cases reader.capture with
  | none => exact ⟨rfl, rfl, rfl⟩
  | some captured => cases captured <;> exact ⟨rfl, rfl, rfl⟩

/-- What a closing tag leads to; a description is finished where its element closes. -/
theorem IsInside.closing {name : String} (h : reader.IsInside (name :: opened))
    (hnext : (reader.closing name).result = .ok next) :
    next.IsInside opened ∧ ∃ new, next.finished = reader.finished ++ new ∧
      new.length = [Event.closing name].countP completes := by
  have houter := Encloses.outer h
  have hcompletes : [Event.closing name].countP completes =
      if Element.named name = .transformation then 1 else 0 := by
    simp [completes, List.countP_singleton]
  unfold Reader.closing at hnext
  cases helement : Element.named name with
  | group =>
      rw [helement] at hnext houter hcompletes
      obtain rfl := Except.ok.inj hnext
      exact ⟨houter, [], (List.append_nil _).symm, hcompletes.symm⟩
  | param =>
      rw [helement] at hnext houter hcompletes
      obtain rfl := Except.ok.inj hnext
      exact ⟨houter, [], (List.append_nil _).symm, hcompletes.symm⟩
  | capture captured =>
      rw [helement] at hnext houter hcompletes
      obtain rfl := Except.ok.inj hnext
      obtain ⟨hactive, hoperation, hfinished⟩ := closeCapture_eq reader
      refine ⟨?_, [], hfinished.trans (List.append_nil _).symm, hcompletes.symm⟩
      rw [IsInside, hactive, hoperation]
      exact houter
  | transformation =>
      rw [helement] at hnext houter hcompletes
      obtain ⟨hoperation, houter⟩ := houter
      obtain ⟨description, -, rfl⟩ :=
        exists_of_closeTransformation ((Attempt.result_except _).symm.trans hnext)
      refine ⟨?_, [description], rfl, hcompletes.symm⟩
      change Encloses false reader.operation.isSome opened
      rw [hoperation]
      exact houter
  | operation other =>
      rw [helement] at hnext houter hcompletes
      obtain ⟨hoperation, houter⟩ := houter
      rcases exists_of_closeOperation hnext with
        ⟨hnone, -⟩ | ⟨_, _, _, -, -, -, _, -, -, rfl⟩
      · rw [hnone] at hoperation
        cases hoperation
      · exact ⟨houter, [], (List.append_nil _).symm, hcompletes.symm⟩

/-- A reader that takes nested events is inside the elements that are open behind them, and has
finished the descriptions whose elements they close. -/
theorem IsInside.takeAll (h : reader.IsInside opened) {events : List Event}
    (hnested : Event.Nested opened events)
    (hnext : (reader.takeAll types events).result = .ok next) :
    next.IsInside (openAfter opened events) ∧ ∃ new, next.finished = reader.finished ++ new ∧
      new.length = events.countP completes := by
  induction events generalizing opened reader with
  | nil =>
      obtain rfl := Except.ok.inj hnext
      exact ⟨h, [], (List.append_nil _).symm, rfl⟩
  | cons event rest ih =>
      rw [Reader.takeAll, Attempt.result_bind] at hnext
      obtain ⟨middle, htake, htakeRest⟩ := bind_eq_ok hnext
      cases event with
      | opening tag =>
          obtain ⟨hinside, hfinished⟩ := h.opening ((Attempt.result_except _).symm.trans htake)
          obtain ⟨hrest, new, hnew, hlength⟩ := ih hinside hnested htakeRest
          exact ⟨hrest, new, by rw [hnew, hfinished], hlength⟩
      | empty tag => exact hnested.elim
      | text content =>
          obtain rfl := Except.ok.inj htake
          obtain ⟨hactive, hoperation, hfinished⟩ := text_eq reader content
          have hinside : (reader.text content).IsInside opened := by
            rw [IsInside, hactive, hoperation]
            exact h
          obtain ⟨hrest, new, hnew, hlength⟩ := ih hinside hnested htakeRest
          exact ⟨hrest, new, by rw [hnew, hfinished], hlength⟩
      | closing name =>
          obtain ⟨outer, rfl, hnested⟩ := hnested
          obtain ⟨hinside, first, hfirst, hone⟩ := h.closing htake
          obtain ⟨hrest, new, hnew, hlength⟩ := ih hinside hnested htakeRest
          refine ⟨hrest, first ++ new, by rw [hnew, hfirst, List.append_assoc], ?_⟩
          rw [List.length_append, hone, hlength, ← List.countP_append, List.singleton_append]

end Reader

/-! ## Whole documents and their beginnings -/

variable {types : TypeTable} {text front rest : String} {descriptions : List Description}

/-- A text is read if it has no fault, its events are taken, and no description is open then. -/
theorem read_eq_ok_iff : (read types text).result = .ok descriptions ↔
    (Document.ofText text).fault = none ∧ ∃ reader,
      (Reader.start.takeAll types (Document.ofText text).events).result = .ok reader ∧
        reader.finished = descriptions ∧ reader.active = none := by
  constructor
  · intro h
    refine ⟨?_, exists_of_read h⟩
    rw [read, ofDocument, Attempt.result_bind] at h
    obtain ⟨reader, -, hend⟩ := bind_eq_ok h
    cases hfault : (Document.ofText text).fault with
    | none => rfl
    | some fault =>
        rw [hfault] at hend
        cases hend
  · rintro ⟨hfault, reader, hread, hfinished, hactive⟩
    rw [read, ofDocument, Attempt.result_bind, hread, ok_bind, hfault]
    refine (Attempt.result_except _).trans ?_
    rw [Reader.finish, hactive, hfinished]

/-- A reader that has taken all events of a text is inside the elements that are open at its end,
and has finished the descriptions that are complete. -/
theorem isInside_unclosed {reader : Reader}
    (h : (Reader.start.takeAll types (Document.ofText text).events).result = .ok reader) :
    reader.IsInside (unclosed text) ∧ reader.finished.length = completed text := by
  rw [← takeAll_parts] at h
  have hstart : Reader.start.IsInside [] := .nothing
  obtain ⟨hinside, new, hnew, hlength⟩ := hstart.takeAll (Markup.nested_ofText text) h
  rw [Markup.openAfter_parts] at hinside
  obtain rfl : reader.finished = new := hnew
  exact ⟨hinside, hlength⟩

/-- A reader that has taken all events of a text has taken those of a beginning without faults; what
it has finished then stays finished. -/
theorem exists_of_read_cut
    (h : (read types (front ++ rest)).result = .ok descriptions)
    (hfault : (Document.ofText front).fault = none) :
    ∃ reader, (Reader.start.takeAll types (Document.ofText front).events).result = .ok reader ∧
      reader.finished <+: descriptions := by
  obtain ⟨hwhole, last, hread, rfl, -⟩ := read_eq_ok_iff.mp h
  obtain ⟨events, tail, more, hbefore, hall, htail⟩ := Markup.events_cut hfault hwhole
  have hnested := Markup.nested_ofText (front ++ rest)
  rw [hall, List.flatMap_append] at hnested
  rw [← takeAll_parts, hall, List.flatMap_append, Reader.result_takeAll_append] at hread
  obtain ⟨hnestedEvents, hnestedMore⟩ := Markup.nested_append hnested
  obtain ⟨reader, hevents, hmore⟩ := bind_eq_ok hread
  have hstart : Reader.start.IsInside [] := .nothing
  obtain ⟨hinside, -⟩ := hstart.takeAll hnestedEvents hevents
  obtain ⟨-, new, hnew, -⟩ := hinside.takeAll hnestedMore hmore
  rw [takeAll_parts] at hevents
  rw [hbefore, Reader.result_takeAll_append, hevents, ok_bind]
  rcases htail with rfl | ⟨content, rfl⟩
  · exact ⟨reader, rfl, new, hnew.symm⟩
  · refine ⟨reader.text content, rfl, new, ?_⟩
    rw [(Reader.text_eq reader content).2.2, hnew]

/-- **What is read of the beginning of a definition.**  In a text that is read, only elements that
group others and elements of parameters are left open.  A beginning of the text is read if it ends
without a fault outside of the elements of descriptions, whatever other elements are open there, and
it holds the descriptions that are complete in it. -/
theorem read_beginning (h : (read types text).result = .ok descriptions) :
    (∀ name ∈ unclosed text, (Element.named name).isForgotten = true) ∧
    ∀ front rest, text = front ++ rest →
      ((∃ found, (read types front).result = .ok found) ↔
        (Document.ofText front).fault = none ∧
          ∀ name ∈ unclosed front, Element.named name ≠ .transformation) ∧
      ∀ found, (read types front).result = .ok found →
        found = descriptions.take (completed front) := by
  refine ⟨?_, ?_⟩
  · obtain ⟨-, reader, hread, -, hactive⟩ := read_eq_ok_iff.mp h
    exact Encloses.isForgotten (isInside_unclosed hread).1 (by rw [hactive]; rfl)
  · rintro front rest rfl
    refine ⟨⟨?_, ?_⟩, ?_⟩
    · rintro ⟨found, hfound⟩
      obtain ⟨hfault, reader, hread, -, hactive⟩ := read_eq_ok_iff.mp hfound
      refine ⟨hfault, fun name hname heq => ?_⟩
      have hopen := (Encloses.active_iff (isInside_unclosed hread).1).mpr ⟨name, hname, heq⟩
      rw [hactive] at hopen
      cases hopen
    · rintro ⟨hfault, hopened⟩
      obtain ⟨reader, hread, -⟩ := exists_of_read_cut h hfault
      cases hactive : reader.active with
      | none => exact ⟨_, read_eq_ok_iff.mpr ⟨hfault, reader, hread, rfl, hactive⟩⟩
      | some description =>
          obtain ⟨name, hname, heq⟩ := (Encloses.active_iff (isInside_unclosed hread).1).mp
            (by rw [hactive]; rfl)
          exact absurd heq (hopened name hname)
    · intro found hfound
      obtain ⟨hfault, reader, hread, rfl, -⟩ := read_eq_ok_iff.mp hfound
      obtain ⟨reader', hread', hprefix⟩ := exists_of_read_cut h hfault
      obtain rfl := Except.ok.inj (hread.symm.trans hread')
      rw [← (isInside_unclosed hread).2]
      exact List.prefix_iff_eq_take.mp hprefix

/-! ### A group that is not closed -/

namespace CutOff

def table : TypeTable := TypeTable.empty.insertAll [Descriptor.named "A", Descriptor.named "B"]

/-- The cut is between two descriptions, in the group of both. -/
def between : String := "<transformations><transformation source=\"A\" target=\"B\"/>"

/-- The cut is inside the second description. -/
def within : String := between ++ "<transformation source=\"B\" target=\"A\">"

def whole : String := within ++ "</transformation></transformations>"

theorem read_whole : (read table whole).result =
    .ok [Description.new "A" "B", Description.new "B" "A"] := by
  decide +kernel

theorem read_beginning_whole :
    (read table whole).result = .ok [Description.new "A" "B", Description.new "B" "A"] ∧
      (¬ ∃ found, (read table within).result = .ok found) ∧
      (∃ found, (read table between).result = .ok found) ∧
      ∀ found, (read table between).result = .ok found →
        found = [Description.new "A" "B", Description.new "B" "A"].take (completed between) := by
  obtain ⟨-, hbeginning⟩ := read_beginning read_whole
  obtain ⟨hwithin, -⟩ := hbeginning within "</transformation></transformations>" rfl
  obtain ⟨hbetween, hfound⟩ := hbeginning between
    ("<transformation source=\"B\" target=\"A\">" ++ "</transformation></transformations>")
    (String.append_assoc ..)
  refine ⟨read_whole, fun hread => ?_, hbetween.mpr (by decide +kernel), hfound⟩
  exact (hwithin.mp hread).2 "transformation" (by decide +kernel) (by decide)

/-- The beginning is read although its group is open, and one of the two descriptions is missing. -/
theorem read_between :
    whole = between ++ ("<transformation source=\"B\" target=\"A\">" ++
        "</transformation></transformations>") ∧
      (read table whole).result = .ok [Description.new "A" "B", Description.new "B" "A"] ∧
      (read table between).result = .ok [Description.new "A" "B"] ∧
      unclosed between = ["transformations"] :=
  ⟨String.append_assoc .., read_whole, by decide +kernel⟩

end CutOff

end Remodel.Definition
