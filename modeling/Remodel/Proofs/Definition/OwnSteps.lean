import Mathlib.Data.List.Forall2
import Remodel.Proofs.Definition.Gathering
import Remodel.Proofs.Markup.Nesting

/-!
# Steps and their elements

Every step is that of the element of one operation.  What a reader gives for the element alone
(`ownStep?`) has the operation, the source fields and the target of the step.  Its parameters are
another matter: an element for a parameter may stand anywhere, and one that stands outside of the
operations puts its parameter into the step of the next one (`readsAlone_iff`).

## Strategy

`elementsFrom` goes over the events of a document and keeps its `Place`: outside of the operations,
or inside one at some depth.  `Follows` relates the place to the reader: outside nothing is
collected but stray parameters, and inside the reader is the one that reads the element alone,
`among` what was read before.  One event keeps it so (`Follows.take`), and where an element is
complete, a step is (`Fits`).
-/

namespace Remodel.Definition

open Markup (Event Tag Document)

/-! ## The elements of operations -/

/-- The element of an operation, from its opening to its closing tag, and what stands in front of
it since the one before. -/
structure OperationElement where
  before : List Event
  events : List Event
  deriving DecidableEq

/-- A place in a document: behind what stands since the last operation, or inside an operation, so
many elements deep. -/
inductive Place
  | outside (before : List Event)
  | inside (element : OperationElement) (depth : Nat)

namespace Place

/-- The place behind an event. -/
def next : Place → Event → Place
  | outside before, .opening tag =>
    if (Element.named tag.name).isOperation then inside ⟨before, [.opening tag]⟩ 0
    else outside (before ++ [.opening tag])
  | outside before, event => outside (before ++ [event])
  | inside element depth, .opening tag =>
    inside { element with events := element.events ++ [.opening tag] } (depth + 1)
  | inside _ 0, .closing _ => outside []
  | inside element (depth + 1), .closing name =>
    inside { element with events := element.events ++ [.closing name] } depth
  | inside element depth, event =>
    inside { element with events := element.events ++ [event] } depth

/-- The element that an event completes. -/
def completed? : Place → Event → Option OperationElement
  | inside element depth, .closing name =>
    if depth = 0 then some { element with events := element.events ++ [.closing name] } else none
  | _, _ => none

end Place

/-- The elements of operations that events complete from a place on. -/
def elementsFrom (place : Place) : List Event → List OperationElement
  | [] => []
  | event :: rest => (place.completed? event).toList ++ elementsFrom (place.next event) rest

/-- The elements of operations in a text. -/
def operationElements (text : String) : List OperationElement :=
  elementsFrom (.outside []) ((Document.ofText text).events.flatMap Event.parts)

/-! ## Own steps and stray parameters -/

/-- The step that is read from an element alone. -/
def OperationElement.ownStep? (types : TypeTable) (element : OperationElement) : Option Step :=
  match (Reader.alone.takeAll types element.events).result with
  | .ok reader => reader.active.bind fun description => description.steps.getLast?
  | .error _ => none

/-- The parameters that tags among events give. -/
def params (events : List Event) : List (String × String) :=
  events.filterMap fun
    | .opening tag => if Element.named tag.name = .param then (paramOf tag).toOption else none
    | _ => none

/-- The keys of the parameters that an element gives itself. -/
def OperationElement.ownKeys (types : TypeTable) (element : OperationElement) : List String :=
  (element.ownStep? types).elim [] fun step => step.params.map Prod.fst

/-- Whether a step is that of an element, apart from the parameters that stand in front of the
element: those with keys that the element does not give are added. -/
def Fits (types : TypeTable) (element : OperationElement) (step : Step) : Prop :=
  ∃ own, element.ownStep? types = some own ∧ Table.Ascending own.params ∧
    step = { own with params := Table.ofList (params element.before ++ own.params) }

/-- Whether the steps of descriptions are those that are read from the elements of a text, each
alone. -/
def ReadsAlone (types : TypeTable) (text : String) (descriptions : List Description) : Prop :=
  (operationElements text).map (OperationElement.ownStep? types) =
    (descriptions.flatMap Description.steps).map some

instance (types : TypeTable) (text : String) (descriptions : List Description) :
    Decidable (ReadsAlone types text descriptions) :=
  inferInstanceAs (Decidable (_ = _))

/-! ## Places and readers -/

section Places

variable {types : TypeTable} {before : List Event} {element : OperationElement} {depth : Nat}
  {opened : List String} {reader next : Reader} {event : Event} {rest : List Event}

theorem takeAll_singleton (reader : Reader) (event : Event) :
    (reader.takeAll types [event]).result = (reader.take types event).result := by
  rw [Reader.takeAll, Attempt.result_bind]
  cases (reader.take types event).result <;> rfl

theorem read_concat {first own own' : Reader} {events : List Event}
    (hread : (first.takeAll types events).result = .ok own)
    (htake : (own.take types event).result = .ok own') :
    (first.takeAll types (events ++ [event])).result = .ok own' := by
  rw [Reader.result_takeAll_append, hread, ok_bind, takeAll_singleton, htake]

theorem params_concat_opening (before : List Event) (tag : Tag) :
    params (before ++ [.opening tag]) = params before ++
      if Element.named tag.name = .param then (paramOf tag).toOption.toList else [] := by
  rw [params, List.filterMap_append]
  congr 1
  cases hparam : (paramOf tag).toOption <;> split <;> simp_all

theorem params_concat_text (before : List Event) (content : String) :
    params (before ++ [.text content]) = params before := by
  simp [params]

theorem params_concat_closing (before : List Event) (name : String) :
    params (before ++ [.closing name]) = params before := by
  simp [params]

/-- Inside the element of an operation, in which parts with the given names are open, a reader of
the element alone has gathered its own parameters. -/
structure Inside (types : TypeTable) (element : OperationElement) (parts : List String)
    (name : String) (frames : List String) (given : List (String × String)) (own : Reader) :
    Prop where
  isPart : ∀ part ∈ parts, (Element.named part).isPart = true
  isOperation : (Element.named name).isOperation = true
  isFrame : ∀ frame ∈ frames, (Element.named frame).isFrame = true
  read : (Reader.alone.takeAll types element.events).result = .ok own
  gathers : own.Gathers parts given

/-- What a reader has read at a place, where elements with the given names are open. -/
def Follows (types : TypeTable) (opened : List String) (reader : Reader) : Place → Prop
  | .outside before => (∀ frame ∈ opened, (Element.named frame).isFrame = true) ∧
      ∃ finished active, reader = .outside finished active (Table.ofList (params before))
  | .inside element depth => ∃ parts name frames given own finished description,
      Inside types element parts name frames given own ∧ parts.length = depth ∧
        opened = parts ++ name :: frames ∧
        reader = own.among finished description (Table.ofList (params element.before ++ given))

/-- What opens outside of operations is one, or the reader stays outside. -/
theorem follows_outside_opening {finished : List Description} {active : Option Description}
    {tag : Tag} (hopened : ∀ frame ∈ opened, (Element.named frame).isFrame = true)
    (hnext : (Reader.outside finished active (Table.ofList (params before))).opening types tag =
      .ok next) :
    Follows types (tag.name :: opened) next ((Place.outside before).next (.opening tag)) ∧
      next.steps = (Reader.outside finished active (Table.ofList (params before))).steps := by
  have hwider : (Element.named tag.name).isFrame = true →
      ∀ frame ∈ tag.name :: opened, (Element.named frame).isFrame = true :=
    fun hframe => List.forall_mem_cons.mpr ⟨hframe, hopened⟩
  unfold Reader.opening at hnext
  rw [Place.next]
  cases helement : Element.named tag.name with
  | group =>
      rw [helement] at hnext hwider
      obtain rfl := Except.ok.inj hnext
      refine ⟨⟨hwider rfl, finished, active, ?_⟩, rfl⟩
      rw [params_concat_opening, if_neg (by simp [helement]), List.append_nil]
  | transformation =>
      rw [helement] at hnext hwider
      obtain ⟨hactive, description, hsteps, rfl⟩ := Reader.exists_of_openTransformation hnext
      obtain rfl : active = none := hactive
      refine ⟨⟨hwider rfl, finished, some description, ?_⟩, ?_⟩
      · rw [params_concat_opening, if_neg (by simp [helement]), List.append_nil]
        rfl
      · simp [Reader.steps, Reader.outside, hsteps]
  | capture captured =>
      -- nothing is captured outside of operations
      rw [helement] at hnext
      cases hnext
  | param =>
      rw [helement, Reader.openParam_eq] at hnext
      rw [helement] at hwider
      cases hparam : paramOf tag with
      | error fault =>
          rw [hparam] at hnext
          cases hnext
      | ok entry =>
          rw [hparam] at hnext
          obtain rfl := Except.ok.inj hnext
          refine ⟨⟨hwider rfl, finished, active, ?_⟩, rfl⟩
          rw [params_concat_opening, if_pos helement, hparam]
          exact congrArg (Reader.outside finished active) (Table.ofList_concat _ entry).symm
  | operation name =>
      rw [helement] at hnext
      obtain ⟨description, operation, hactive, hparse, rfl⟩ :=
        Reader.exists_of_openOperation hnext
      obtain rfl : active = some description := hactive
      obtain ⟨hopen, hgathers⟩ := Reader.opening_alone helement hparse
      have hread : (Reader.alone.takeAll types [.opening tag]).result =
          .ok { Reader.alone with operation := some (name, operation) } := by
        rw [takeAll_singleton, Reader.take, Attempt.result_except, hopen]
      have hinside : Inside types ⟨before, [.opening tag]⟩ [] tag.name opened [] _ :=
        ⟨by simp, by rw [helement]; rfl, hopened, hread, hgathers⟩
      refine ⟨⟨[], tag.name, opened, [], _, finished, description, hinside, rfl, rfl, ?_⟩, rfl⟩
      rw [List.append_nil]
      rfl

/-- What closes outside of operations is none. -/
theorem follows_outside_closing {finished : List Description} {active : Option Description}
    {name : String} {frames : List String}
    (hopened : ∀ frame ∈ name :: frames, (Element.named frame).isFrame = true)
    (hnext : ((Reader.outside finished active (Table.ofList (params before))).closing name).result =
      .ok next) :
    Follows types frames next ((Place.outside before).next (.closing name)) ∧
      next.steps = (Reader.outside finished active (Table.ofList (params before))).steps := by
  obtain ⟨hframe, hframes⟩ := List.forall_mem_cons.mp hopened
  unfold Reader.closing at hnext
  have hsame : next = Reader.outside finished active (Table.ofList (params before)) →
      Follows types frames next ((Place.outside before).next (.closing name)) ∧
        next.steps = (Reader.outside finished active (Table.ofList (params before))).steps := by
    rintro rfl
    exact ⟨⟨hframes, finished, active, by rw [params_concat_closing]⟩, rfl⟩
  cases helement : Element.named name with
  | group =>
      rw [helement] at hnext
      exact hsame (Except.ok.inj hnext).symm
  | param =>
      rw [helement] at hnext
      exact hsame (Except.ok.inj hnext).symm
  | transformation =>
      rw [helement] at hnext
      cases active with
      | none => cases hnext
      | some description =>
          obtain rfl := Except.ok.inj hnext
          refine ⟨⟨hframes, finished ++ [description], none, ?_⟩, ?_⟩
          · rw [params_concat_closing]
            rfl
          · simp [Reader.steps, Reader.outside]
  | capture captured =>
      rw [helement] at hframe
      cases hframe
  | operation name =>
      rw [helement] at hframe
      cases hframe

section Within

variable {parts frames : List String} {name : String} {given : List (String × String)}
  {own : Reader} {finished : List Description} {description : Description}

theorem follows_inside_opening (h : Inside types element parts name frames given own) {tag : Tag}
    (hnext : (own.among finished description
      (Table.ofList (params element.before ++ given))).opening types tag = .ok next) :
    Follows types (tag.name :: (parts ++ name :: frames)) next
        ((Place.inside element parts.length).next (.opening tag)) ∧
      next.steps = (own.among finished description
        (Table.ofList (params element.before ++ given))).steps := by
  obtain ⟨hpart, own', given', hopen, hgathers, rfl⟩ := h.gathers.opening hnext
  have htake : (own.take types (.opening tag)).result = .ok own' := by
    rw [Reader.take, hopen]
    rfl
  exact ⟨⟨tag.name :: parts, name, frames, given', own', finished, description,
    ⟨List.forall_mem_cons.mpr ⟨hpart, h.isPart⟩, h.isOperation, h.isFrame,
      read_concat h.read htake, hgathers⟩, rfl, rfl, rfl⟩, rfl⟩

theorem follows_inside_closing {part : String}
    (h : Inside types element (part :: parts) name frames given own)
    (hnext : ((own.among finished description
      (Table.ofList (params element.before ++ given))).closing part).result = .ok next) :
    Follows types (parts ++ name :: frames) next
        ((Place.inside element (parts.length + 1)).next (.closing part)) ∧
      next.steps = (own.among finished description
        (Table.ofList (params element.before ++ given))).steps := by
  obtain ⟨hpart, hparts⟩ := List.forall_mem_cons.mp h.isPart
  obtain ⟨own', hclose, hgathers, rfl⟩ := h.gathers.closing hpart hnext
  exact ⟨⟨parts, name, frames, given, own', finished, description,
    ⟨hparts, h.isOperation, h.isFrame, read_concat h.read hclose, hgathers⟩, rfl, rfl, rfl⟩, rfl⟩

theorem follows_inside_text (h : Inside types element parts name frames given own)
    (content : String) :
    Follows types (parts ++ name :: frames) ((own.among finished description
        (Table.ofList (params element.before ++ given))).text content)
      ((Place.inside element parts.length).next (.text content)) := by
  obtain ⟨hgathers, htext⟩ := h.gathers.text content
  have htake : (own.take types (.text content)).result = .ok (own.text content) := rfl
  rw [htext]
  exact ⟨parts, name, frames, given, own.text content, finished, description,
    ⟨h.isPart, h.isOperation, h.isFrame, read_concat h.read htake, hgathers⟩, rfl, rfl, rfl⟩

/-- Where the element of an operation closes, its step is complete. -/
theorem fits_of_closing (h : Inside types element [] name frames given own)
    (hnext : ((own.among finished description
      (Table.ofList (params element.before ++ given))).closing name).result = .ok next) :
    Follows types frames next ((Place.inside element 0).next (.closing name)) ∧
      ∃ step, Fits types { element with events := element.events ++ [.closing name] } step ∧
        next.steps = (own.among finished description
          (Table.ofList (params element.before ++ given))).steps ++ [step] := by
  have hclosing : ∀ reader : Reader, reader.closing name = reader.closeOperation := by
    intro reader
    have hoperation := h.isOperation
    unfold Reader.closing
    cases helement : Element.named name with
    | operation other => rfl
    | _ =>
        rw [helement] at hoperation
        cases hoperation
  rw [hclosing] at hnext
  obtain ⟨step, hascending, hown, rfl⟩ := h.gathers.closeOperation hnext
  have htake : (own.take types (.closing name)).result =
      .ok { own.cleared with active := some ((Description.new "" "").addStep step) } := by
    rw [Reader.take, hclosing, hown]
  refine ⟨⟨h.isFrame, finished, _, rfl⟩,
    ⟨{ step with params := Table.ofList (params element.before ++ step.params) },
    ⟨step, ?_, hascending, rfl⟩, ?_⟩⟩
  · rw [OperationElement.ownStep?, read_concat h.read htake]
    rfl
  · simp [Reader.steps, Reader.among, Description.addStep]

end Within

/-- What an event has led to: the reader follows, and if an element is complete, a step is. -/
structure Proceeds (types : TypeTable) (rest : List Event) (reader next : Reader) (place : Place)
    (event : Event) : Prop where
  follows : ∃ opened, Event.Nested opened rest ∧ Follows types opened next (place.next event)
  steps : ∃ new, next.steps = reader.steps ++ new ∧
    List.Forall₂ (Fits types) (place.completed? event).toList new

theorem proceeds_of_steps_eq {place : Place} (hnone : place.completed? event = none)
    (hrest : Event.Nested opened rest)
    (h : Follows types opened next (place.next event) ∧ next.steps = reader.steps) :
    Proceeds types rest reader next place event where
  follows := ⟨opened, hrest, h.1⟩
  steps := ⟨[], by rw [h.2, List.append_nil], by rw [hnone]; exact List.Forall₂.nil⟩

/-- One event. -/
theorem Follows.take {place : Place} (h : Follows types opened reader place)
    (hnested : Event.Nested opened (event :: rest))
    (hnext : (reader.take types event).result = .ok next) :
    Proceeds types rest reader next place event := by
  cases place with
  | outside before =>
      obtain ⟨hopened, finished, active, rfl⟩ := h
      cases event with
      | opening tag =>
          have hopen := (Attempt.result_except _).symm.trans hnext
          exact proceeds_of_steps_eq rfl hnested (follows_outside_opening hopened hopen)
      | closing name =>
          obtain ⟨outer, rfl, hrest⟩ := hnested
          exact proceeds_of_steps_eq rfl hrest (follows_outside_closing hopened hnext)
      | text content =>
          obtain rfl := Except.ok.inj hnext
          refine proceeds_of_steps_eq rfl hnested ⟨⟨hopened, finished, active, ?_⟩, rfl⟩
          rw [params_concat_text]
          rfl
      | empty tag => exact hnested.elim
  | inside element depth =>
      obtain ⟨parts, name, frames, given, own, finished, description, hinside, rfl, rfl, rfl⟩ := h
      cases event with
      | opening tag =>
          have hopen := (Attempt.result_except _).symm.trans hnext
          exact proceeds_of_steps_eq rfl hnested (follows_inside_opening hinside hopen)
      | closing closed =>
          obtain ⟨outer, hopened, hrest⟩ := hnested
          cases parts with
          | nil =>
              -- the operation itself closes
              obtain ⟨rfl, rfl⟩ := List.cons.inj hopened
              obtain ⟨hfollows, step, hfits, hsteps⟩ := fits_of_closing hinside hnext
              exact ⟨⟨_, hrest, hfollows⟩, [step], hsteps, List.Forall₂.cons hfits List.Forall₂.nil⟩
          | cons part parts =>
              obtain ⟨rfl, rfl⟩ := List.cons.inj hopened
              exact proceeds_of_steps_eq rfl hrest (follows_inside_closing hinside hnext)
      | text content =>
          obtain rfl := Except.ok.inj hnext
          exact proceeds_of_steps_eq rfl hnested
            ⟨follows_inside_text hinside content, Reader.steps_text _ content⟩
      | empty tag => exact hnested.elim

/-- All events. -/
theorem Follows.takeAll {place : Place} (h : Follows types opened reader place)
    {events : List Event} (hnested : Event.Nested opened events)
    (hnext : (reader.takeAll types events).result = .ok next) :
    ∃ new, next.steps = reader.steps ++ new ∧
      List.Forall₂ (Fits types) (elementsFrom place events) new := by
  induction events generalizing place opened reader with
  | nil =>
      obtain rfl := Except.ok.inj hnext
      exact ⟨[], (List.append_nil _).symm, List.Forall₂.nil⟩
  | cons event rest ih =>
      rw [Reader.takeAll, Attempt.result_bind] at hnext
      obtain ⟨middle, htake, hnext⟩ := bind_eq_ok hnext
      obtain ⟨⟨opened', hrest, hfollows⟩, new, hsteps, hfits⟩ := h.take hnested htake
      obtain ⟨more, hmore, hmoreFits⟩ := ih hfollows hrest hnext
      refine ⟨new ++ more, by rw [hmore, hsteps, List.append_assoc], ?_⟩
      rw [elementsFrom]
      exact List.rel_append hfits hmoreFits

end Places

/-! ## Whole documents -/

variable {types : TypeTable} {text : String} {descriptions : List Description}

/-- An element without content may be read as one with two tags. -/
theorem takeAll_parts (reader : Reader) (events : List Event) :
    (reader.takeAll types (events.flatMap Event.parts)).result =
      (reader.takeAll types events).result := by
  induction events generalizing reader with
  | nil => rfl
  | cons event rest ih =>
      have hevent : (reader.takeAll types event.parts).result = (reader.take types event).result := by
        cases event with
        | empty tag =>
            rw [Event.parts, Reader.takeAll, Reader.take, Attempt.result_bind, Reader.take,
              Attempt.result_bind]
            simp only [takeAll_singleton]
            rfl
        | opening tag => exact takeAll_singleton reader _
        | closing name => exact takeAll_singleton reader _
        | text content => exact takeAll_singleton reader _
      rw [List.flatMap_cons, Reader.result_takeAll_append, hevent, Reader.takeAll,
        Attempt.result_bind]
      simp only [ih]

theorem finished_eq_of_finish {reader : Reader} (h : reader.finish = .ok descriptions) :
    reader.finished = descriptions ∧ reader.active = none := by
  unfold Reader.finish at h
  cases hactive : reader.active with
  | some description =>
      rw [hactive] at h
      cases h
  | none =>
      rw [hactive] at h
      exact ⟨Except.ok.inj h, rfl⟩

/-- A text is read where a reader takes all its events and has no description open then. -/
theorem exists_of_read (h : (read types text).result = .ok descriptions) :
    ∃ reader, (Reader.start.takeAll types (Document.ofText text).events).result = .ok reader ∧
      reader.finished = descriptions ∧ reader.active = none := by
  rw [read, ofDocument, Attempt.result_bind] at h
  obtain ⟨reader, hread, hend⟩ := bind_eq_ok h
  refine ⟨reader, hread, finished_eq_of_finish ?_⟩
  cases hfault : (Document.ofText text).fault with
  | some fault =>
      rw [hfault] at hend
      cases hend
  | none =>
      rw [hfault] at hend
      exact (Attempt.result_except _).symm.trans hend

/-- The steps of a text that is read are those of its elements, apart from stray parameters. -/
theorem fits_of_read (h : (read types text).result = .ok descriptions) :
    List.Forall₂ (Fits types) (operationElements text)
      (descriptions.flatMap Description.steps) := by
  obtain ⟨reader, hread, rfl, hactive⟩ := exists_of_read h
  rw [← takeAll_parts] at hread
  have hstart : Follows types [] Reader.start (.outside []) :=
    ⟨fun _ hmem => absurd hmem List.not_mem_nil, [], none, rfl⟩
  obtain ⟨new, hsteps, hfits⟩ := hstart.takeAll (Markup.nested_ofText text) hread
  have hall : reader.finished.flatMap Description.steps = new := by
    simpa [Reader.steps, hactive, Reader.start] using hsteps
  rw [hall]
  exact hfits

/-- A step that fits an element is the own one exactly if every stray parameter is replaced. -/
theorem Fits.ownStep?_eq_iff {element : OperationElement} {step : Step}
    (h : Fits types element step) :
    element.ownStep? types = some step ↔
      ∀ param ∈ params element.before, param.1 ∈ element.ownKeys types := by
  obtain ⟨own, hown, hascending, rfl⟩ := h
  have htable : Table.ofList own.params = own.params := hascending.ofList_eq (List.Perm.refl _)
  have hiff := Table.ofList_append_eq_iff (params element.before) own.params
  rw [htable] at hiff
  rw [OperationElement.ownKeys, hown, Option.elim_some, ← hiff]
  constructor
  · intro heq
    exact (congrArg Step.params (Option.some.inj heq)).symm
  · intro heq
    rw [heq]

theorem map_eq_map_some_iff {α β : Type} {R : α → β → Prop} {f : α → Option β} {P : α → Prop}
    (hiff : ∀ a b, R a b → (f a = some b ↔ P a)) {as : List α} {bs : List β}
    (h : List.Forall₂ R as bs) : as.map f = bs.map some ↔ ∀ a ∈ as, P a := by
  induction h with
  | nil => simp
  | cons hfirst _ ih =>
      rw [List.map_cons, List.map_cons, List.cons.injEq, hiff _ _ hfirst, ih, List.forall_mem_cons]

/-- **Steps are those of their elements unless parameters stray.**  In a text that is read, every
step has the operation, the source fields and the target that are read from its element alone.  Its
parameters are those of the element and those that stand in front of it, outside of the operations,
since the one before.  So all steps are read as from their elements alone if and only if no
parameter stands there under a key that the element does not give itself. -/
theorem readsAlone_iff (h : (read types text).result = .ok descriptions) :
    List.Forall₂ (Fits types) (operationElements text)
        (descriptions.flatMap Description.steps) ∧
      (ReadsAlone types text descriptions ↔
        ∀ element ∈ operationElements text, ∀ param ∈ params element.before,
          param.1 ∈ element.ownKeys types) :=
  ⟨fits_of_read h,
    map_eq_map_some_iff (fun _ _ hfits => Fits.ownStep?_eq_iff hfits) (fits_of_read h)⟩

/-! ### A parameter in front of an operation -/

namespace Astray

def table : TypeTable := TypeTable.empty.insertAll [Descriptor.named "A", Descriptor.named "B"]

def description (params : List (String × String)) : Description :=
  { Description.new "A" "B" with steps := [⟨.value, [], some "y", params⟩] }

def astray : String :=
  "<transformation source=\"A\" target=\"B\"><param key=\"value\" value=\"x\"/>" ++
    "<value><target-field>y</target-field></value></transformation>"

theorem ofText_astray : Document.ofText astray =
    ⟨[.opening ⟨"transformation", " source=\"A\" target=\"B\""⟩,
      .empty ⟨"param", " key=\"value\" value=\"x\""⟩, .opening ⟨"value", ""⟩,
      .opening ⟨"target-field", ""⟩, .text "y", .closing "target-field", .closing "value",
      .closing "transformation"], none⟩ := by
  decide +kernel

/-- A parameter that stands in front of an operation is in its step, but not in that of its element
alone. -/
theorem not_readsAlone_astray :
    (read table astray).result = .ok [description [("value", "x")]] ∧
      (operationElements astray).map (OperationElement.ownStep? table) =
        [some ⟨.value, [], some "y", []⟩] ∧
      ¬ ReadsAlone table astray [description [("value", "x")]] := by
  rw [read, ReadsAlone, operationElements, ofText_astray]
  decide +kernel

/-- A parameter in front of an operation that gives it itself. -/
def replaced : String :=
  "<transformation source=\"A\" target=\"B\"><param key=\"value\" value=\"x\"/>" ++
    "<value><target-field>y</target-field><operation-string>z</operation-string></value>" ++
    "</transformation>"

theorem ofText_replaced : Document.ofText replaced =
    ⟨[.opening ⟨"transformation", " source=\"A\" target=\"B\""⟩,
      .empty ⟨"param", " key=\"value\" value=\"x\""⟩, .opening ⟨"value", ""⟩,
      .opening ⟨"target-field", ""⟩, .text "y", .closing "target-field",
      .opening ⟨"operation-string", ""⟩, .text "z", .closing "operation-string",
      .closing "value", .closing "transformation"], none⟩ := by
  decide +kernel

theorem readsAlone_replaced :
    (read table replaced).result = .ok [description [("value", "z")]] ∧
      ReadsAlone table replaced [description [("value", "z")]] := by
  have hread : (read table replaced).result = .ok [description [("value", "z")]] := by
    rw [read, ofText_replaced]
    decide +kernel
  refine ⟨hread, (readsAlone_iff hread).2.mpr ?_⟩
  rw [operationElements, ofText_replaced]
  decide +kernel

end Astray

end Remodel.Definition
