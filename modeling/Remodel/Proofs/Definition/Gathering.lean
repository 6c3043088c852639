import Remodel.Proofs.Definition.Loading
import Remodel.Proofs.Table

/-!
# Readers of one element among others

What a reader collects for a step is kept beside what it has read before: complete descriptions, the
beginning of the open one, and parameters that were given outside of operations (`among`).  The two
do not meet before the element of the operation closes.  So a reader that takes an event of the
element with something read before goes where the reader of the element alone goes, one lemma for
each kind of event (`Gathers.opening`, `Gathers.closing`, `Gathers.text`), and where the element
closes the steps of the two differ in the parameters only (`Gathers.closeOperation`).
-/

namespace Remodel.Definition

open Markup (Tag)

/-! ## Parts and frames -/

namespace Element

/-- Whether an element is that of an operation. -/
def isOperation : Element → Bool
  | operation _ => true
  | _ => false

/-- Whether an element may stand inside that of an operation. -/
def isPart : Element → Bool
  | group => true
  | capture _ => true
  | param => true
  | _ => false

/-- Whether an element, apart from those of operations, may stand outside of these. -/
def isFrame : Element → Bool
  | group => true
  | transformation => true
  | param => true
  | _ => false

end Element

/-- The parameter that a tag gives. -/
def paramOf (tag : Tag) : Except Error (String × String) := do
  let given ← Reader.attributes tag
  let key ← Reader.orFault .keylessParameter (given.lookup "key")
  return (key, (given.lookup "value").getD "")

/-! ## Parts of a step -/

namespace Reader

variable {types : TypeTable}

/-- Every step that a reader has completed. -/
def steps (reader : Reader) : List Step :=
  reader.finished.flatMap Description.steps ++ reader.active.elim [] Description.steps

theorem openParam_eq (reader : Reader) (tag : Tag) :
    reader.openParam tag = (paramOf tag).map fun entry =>
      { reader with params := Table.insert entry.1 entry.2 reader.params } := by
  unfold openParam paramOf
  cases attributes tag with
  | error fault => rfl
  | ok given =>
      rw [ok_bind, ok_bind]
      cases orFault .keylessParameter (given.lookup "key") <;> rfl

/-- The parameter that an operation string fills. -/
def filled (reader : Reader) (operation : Operation) : List (String × String) :=
  match reader.operationString, operation.filledParam? with
  | some value, some key => [(key, value)]
  | _, _ => []

theorem value_stepParams {reader : Reader} {given : List (String × String)}
    (hparams : reader.params = Table.ofList given) (operation : Operation) :
    (reader.stepParams operation).value = Table.ofList (given ++ reader.filled operation) := by
  unfold stepParams filled
  cases reader.operationString with
  | none => simpa using hparams
  | some value =>
      cases operation.filledParam? with
      | none => simpa using hparams
      | some key =>
          rw [Table.ofList_concat, ← hparams]
          rfl

/-- An operation closes if it has the fields that it needs, and then its step is complete. -/
theorem result_closeOperation_iff {reader next : Reader} {name : String}
    {operation : Operation} {description : Description}
    (hoperation : reader.operation = some (name, operation))
    (hactive : reader.active = some description) :
    reader.closeOperation.result = .ok next ↔
      (operation.readsSource && reader.sources.isEmpty) = false ∧
        ∃ target, reader.target = some target ∧ target ≠ "" ∧
          next = { reader.cleared with
            active := some (description.addStep
              ⟨operation, reader.sources, some target, (reader.stepParams operation).value⟩) } := by
  cases hneeded : operation.readsSource && reader.sources.isEmpty with
  | true => simp [closeOperation, hoperation, hneeded]
  | false =>
      cases htarget : reader.target with
      | none => simp [closeOperation, hoperation, hneeded, htarget]
      | some target =>
          by_cases hfilled : target = ""
          · simp [closeOperation, hoperation, hneeded, htarget, hfilled]
          · have hresult : reader.closeOperation.result = .ok { reader.cleared with
                active := some (description.addStep ⟨operation, reader.sources, some target,
                  (reader.stepParams operation).value⟩) } := by
              simp [closeOperation, hoperation, hneeded, htarget, hfilled, hactive]
            rw [hresult]
            constructor
            · exact fun hok => ⟨rfl, target, rfl, hfilled, (Except.ok.inj hok).symm⟩
            · rintro ⟨-, _, ⟨⟩, -, rfl⟩
              rfl

/-- Where no operation is open, nothing happens; otherwise one closes inside a description. -/
theorem exists_of_closeOperation {reader next : Reader}
    (h : reader.closeOperation.result = .ok next) :
    (reader.operation = none ∧ next = reader) ∨
      ∃ name operation description, reader.operation = some (name, operation) ∧
        reader.active = some description ∧
        (operation.readsSource && reader.sources.isEmpty) = false ∧
        ∃ target, reader.target = some target ∧ target ≠ "" ∧
          next = { reader.cleared with
            active := some (description.addStep
              ⟨operation, reader.sources, some target, (reader.stepParams operation).value⟩) } := by
  cases hoperation : reader.operation with
  | none =>
      rw [closeOperation, hoperation] at h
      exact Or.inl ⟨rfl, (Except.ok.inj h).symm⟩
  | some open_ =>
      obtain ⟨name, operation⟩ := open_
      cases hactive : reader.active with
      | none =>
          -- whether or not the fields are there, the step has no place to go
          rw [closeOperation, hoperation] at h
          cases hneeded : operation.readsSource && reader.sources.isEmpty with
          | true => simp [hneeded] at h
          | false =>
              cases htarget : reader.target with
              | none => simp [hneeded, htarget] at h
              | some target =>
                  by_cases hfilled : target = "" <;> simp [hneeded, htarget, hfilled, hactive] at h
      | some description =>
          exact Or.inr ⟨name, operation, description, rfl, rfl,
            (result_closeOperation_iff hoperation hactive).mp h⟩

/-! ## Reading an element among others -/

/-- The reader in front of an element that stands alone in a description. -/
def alone : Reader := inside [] (Description.new "" "")

/-- A reader that has read something else before: descriptions, the beginning of the open one, and
parameters. -/
def among (own : Reader) (finished : List Description) (description : Description)
    (params : List (String × String)) : Reader :=
  { own with finished := finished, active := some description, params := params }

/-- A reader that has read a part of the element of an operation alone: what is open in it and the
parameters that were given. -/
structure Gathers (inner : List String) (given : List (String × String)) (own : Reader) :
    Prop where
  active : own.active = some (Description.new "" "")
  operation : own.operation.isSome = true
  params : own.params = Table.ofList given
  capture : ∀ captured, own.capture = some captured →
    ∃ name ∈ inner, ∃ element, Element.named name = .capture element
  buffer : own.capture = none → own.buffer = ""

/-- An operation opens, and nothing is gathered yet. -/
theorem opening_alone {tag : Tag} {name : String} {operation : Operation}
    (helement : Element.named tag.name = .operation name)
    (hparse : Operation.parse name = .ok operation) :
    alone.opening types tag = .ok { alone with operation := some (name, operation) } ∧
      Gathers [] [] { alone with operation := some (name, operation) } := by
  constructor
  · rw [opening, helement]
    simp only [openOperation, hparse]
    rfl
  · refine ⟨rfl, rfl, rfl, ?_, fun _ => rfl⟩
    intro captured hcaptured
    cases hcaptured

section Among

variable {inner : List String} {given stray : List (String × String)} {own next : Reader}
  {finished : List Description} {description : Description}

/-- What opens inside the element of an operation is a part of it. -/
theorem Gathers.opening (h : Gathers inner given own) {tag : Tag}
    (hnext : (own.among finished description (Table.ofList (stray ++ given))).opening types tag =
      .ok next) :
    (Element.named tag.name).isPart = true ∧ ∃ own' given',
      own.opening types tag = .ok own' ∧ Gathers (tag.name :: inner) given' own' ∧
        next = own'.among finished description (Table.ofList (stray ++ given')) := by
  unfold Reader.opening at hnext ⊢
  have hwider : ∀ captured, own.capture = some captured →
      ∃ name ∈ tag.name :: inner, ∃ element, Element.named name = .capture element :=
    fun captured hcaptured =>
      let ⟨name, hname, helement⟩ := h.capture captured hcaptured
      ⟨name, List.mem_cons_of_mem _ hname, helement⟩
  cases helement : Element.named tag.name with
  | group =>
      rw [helement] at hnext
      exact ⟨rfl, own, given, rfl, ⟨h.active, h.operation, h.params, hwider, h.buffer⟩,
        (Except.ok.inj hnext).symm⟩
  | transformation =>
      -- a description is open
      rw [helement] at hnext
      cases hnext
  | capture element =>
      rw [helement] at hnext
      have hopen : (own.among finished description
        (Table.ofList (stray ++ given))).operation.isSome = true := h.operation
      simp only [openCapture, hopen, h.operation, if_true] at hnext ⊢
      refine ⟨rfl, _, given, rfl, ⟨h.active, h.operation, h.params, ?_, ?_⟩,
        (Except.ok.inj hnext).symm⟩
      · exact fun _ _ => ⟨tag.name, List.mem_cons_self .., element, helement⟩
      · intro hnone
        cases hnone
  | param =>
      rw [helement] at hnext
      simp only [openParam_eq] at hnext ⊢
      cases hparam : paramOf tag with
      | error fault =>
          rw [hparam] at hnext
          cases hnext
      | ok entry =>
          rw [hparam] at hnext
          refine ⟨rfl, _, given ++ [entry], rfl, ⟨h.active, h.operation, ?_, hwider, h.buffer⟩, ?_⟩
          · rw [Table.ofList_concat, ← h.params]
          · rw [← List.append_assoc, Table.ofList_concat]
            exact (Except.ok.inj hnext).symm
  | operation name =>
      -- operations do not stand in each other
      rw [helement] at hnext
      obtain ⟨⟨surrounding, operation⟩, hopen⟩ := Option.isSome_iff_exists.mp h.operation
      simp only [openOperation, among, hopen] at hnext
      cases hnext

theorem closeCapture_among (params : List (String × String)) :
    (own.among finished description params).closeCapture =
      own.closeCapture.among finished description params := by
  unfold closeCapture among
  cases own.capture with
  | none => rfl
  | some captured => cases captured <;> rfl

/-- Nothing is captured behind an element that is. -/
theorem Gathers.closeCapture {outer : List String} (h : Gathers outer given own) :
    Gathers inner given own.closeCapture := by
  unfold Reader.closeCapture
  split <;> exact ⟨h.active, h.operation, h.params, by simp, fun _ => rfl⟩

/-- What closes inside the element of an operation is a part of it. -/
theorem Gathers.closing {name : String} (h : Gathers (name :: inner) given own)
    (hpart : (Element.named name).isPart = true)
    (hnext : ((own.among finished description (Table.ofList (stray ++ given))).closing name).result =
      .ok next) :
    ∃ own', (own.closing name).result = .ok own' ∧ Gathers inner given own' ∧
      next = own'.among finished description (Table.ofList (stray ++ given)) := by
  unfold Reader.closing at hnext ⊢
  have hsame : (∀ element, Element.named name ≠ .capture element) → Gathers inner given own := by
    intro hother
    refine ⟨h.active, h.operation, h.params, fun captured hcaptured => ?_, h.buffer⟩
    obtain ⟨found, hmem, element, hfound⟩ := h.capture captured hcaptured
    rcases List.mem_cons.mp hmem with rfl | hmem
    · exact absurd hfound (hother element)
    · exact ⟨found, hmem, element, hfound⟩
  cases helement : Element.named name with
  | group =>
      rw [helement] at hnext hsame
      exact ⟨own, rfl, hsame (by simp), (Except.ok.inj hnext).symm⟩
  | param =>
      rw [helement] at hnext hsame
      exact ⟨own, rfl, hsame (by simp), (Except.ok.inj hnext).symm⟩
  | capture element =>
      rw [helement] at hnext
      refine ⟨own.closeCapture, rfl, h.closeCapture, ?_⟩
      rw [← closeCapture_among]
      exact (Except.ok.inj hnext).symm
  | transformation =>
      rw [helement] at hpart
      cases hpart
  | operation other =>
      rw [helement] at hpart
      cases hpart

theorem Gathers.text (h : Gathers inner given own) (content : String) :
    Gathers inner given (own.text content) ∧
      (own.among finished description (Table.ofList (stray ++ given))).text content =
        (own.text content).among finished description (Table.ofList (stray ++ given)) := by
  cases hcapture : own.capture with
  | none => simp [Reader.text, among, hcapture, h]
  | some captured =>
      have htext : own.text content = { own with buffer := own.buffer ++ content } := by
        simp [Reader.text, hcapture]
      rw [htext]
      refine ⟨⟨h.active, h.operation, h.params, h.capture, fun hnone => ?_⟩, ?_⟩
      · cases hcapture.symm.trans hnone
      · simp [Reader.text, among, hcapture]

/-- Where the element of an operation closes, the step is that of the element alone, apart from the
parameters that were read before. -/
theorem Gathers.closeOperation (h : Gathers [] given own)
    (hnext : (own.among finished description
      (Table.ofList (stray ++ given))).closeOperation.result = .ok next) :
    ∃ step : Step, Table.Ascending step.params ∧
      own.closeOperation.result =
        .ok { own.cleared with active := some ((Description.new "" "").addStep step) } ∧
      next = { Reader.start with
        finished := finished
        active := some (description.addStep
          { step with params := Table.ofList (stray ++ step.params) }) } := by
  obtain ⟨⟨name, operation⟩, hoperation⟩ := Option.isSome_iff_exists.mp h.operation
  have hopen : (own.among finished description (Table.ofList (stray ++ given))).operation =
      some (name, operation) := hoperation
  obtain ⟨hneeded, target, htarget, hfilled, rfl⟩ :=
    (result_closeOperation_iff hopen rfl).mp hnext
  have hcapture : own.capture = none := Option.eq_none_iff_forall_ne_some.mpr fun captured hsome =>
    let ⟨_, hmem, _⟩ := h.capture captured hsome
    absurd hmem List.not_mem_nil
  have hbuffer := h.buffer hcapture
  have hown : (own.stepParams operation).value = Table.ofList (given ++ own.filled operation) :=
    value_stepParams h.params operation
  have hall : (own.among finished description (Table.ofList (stray ++ given))).params =
      Table.ofList (stray ++ given) := rfl
  have hparams : ((own.among finished description
      (Table.ofList (stray ++ given))).stepParams operation).value =
        Table.ofList (stray ++ (own.stepParams operation).value) := by
    rw [value_stepParams hall, hown, Table.ofList_append_ofList, List.append_assoc]
    rfl
  refine ⟨⟨operation, own.sources, some target, (own.stepParams operation).value⟩,
    hown ▸ Table.ascending_ofList _, (result_closeOperation_iff hoperation h.active).mpr
      ⟨hneeded, target, htarget, hfilled, rfl⟩, ?_⟩
  rw [hparams]
  simp [cleared, among, start, hcapture, hbuffer]

end Among

theorem steps_text (reader : Reader) (content : String) :
    (reader.text content).steps = reader.steps := by
  unfold Reader.text
  split <;> rfl

/-! ## Between operations -/

/-- The reader between operations, with the parameters that were given since the last one. -/
def outside (finished : List Description) (active : Option Description)
    (params : List (String × String)) : Reader :=
  { start with finished := finished, active := active, params := params }

section Between

variable {reader next : Reader} {tag : Tag}

theorem exists_of_openTransformation (h : reader.openTransformation types tag = .ok next) :
    reader.active = none ∧ ∃ description : Description, description.steps = [] ∧
      next = { reader with active := some description } := by
  unfold openTransformation at h
  cases hactive : reader.active with
  | some description =>
      rw [hactive] at h
      cases h
  | none =>
      rw [hactive] at h
      obtain ⟨given, -, h⟩ := bind_eq_ok h
      obtain ⟨sourceName, -, h⟩ := bind_eq_ok h
      obtain ⟨targetName, -, h⟩ := bind_eq_ok h
      obtain ⟨source, -, h⟩ := bind_eq_ok h
      obtain ⟨target, -, h⟩ := bind_eq_ok h
      exact ⟨rfl, _, rfl, (Except.ok.inj h).symm⟩

theorem exists_of_openOperation {name : String} (h : reader.openOperation name = .ok next) :
    ∃ description operation, reader.active = some description ∧
      Operation.parse name = .ok operation ∧
      next = { reader with operation := some (name, operation) } := by
  unfold openOperation at h
  cases hactive : reader.active with
  | none =>
      rw [hactive] at h
      cases h
  | some description =>
      rw [hactive] at h
      simp only [Option.isNone_some, Bool.false_eq_true, if_false] at h
      split at h
      · cases h
      · cases hparse : Operation.parse name with
        | error fault =>
            rw [hparse] at h
            cases h
        | ok operation =>
            rw [hparse] at h
            exact ⟨description, operation, rfl, rfl, (Except.ok.inj h).symm⟩

theorem exists_of_closeTransformation (h : reader.closeTransformation = .ok next) :
    ∃ description, reader.active = some description ∧
      next = { reader with finished := reader.finished ++ [description], active := none } := by
  unfold closeTransformation at h
  cases hactive : reader.active with
  | none =>
      rw [hactive] at h
      cases h
  | some description =>
      rw [hactive] at h
      exact ⟨description, rfl, (Except.ok.inj h).symm⟩

theorem operation_eq_none_of_openOperation {name : String}
    (h : reader.openOperation name = .ok next) : reader.operation = none := by
  unfold openOperation at h
  split at h
  · cases h
  · split at h
    · cases h
    · assumption

end Between

end Reader

end Remodel.Definition
