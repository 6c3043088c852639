import Remodel.Proofs.Definition.OwnSteps
import Remodel.Proofs.Transform.Computing
import Remodel.Proofs.Transform.Reporting
import Remodel.Proofs.Types

/-!
# Steps that are read are complete

A description that is read from a text leads from a known type to a known type, and each of its
steps has a target, with a name that is not empty, and the source fields that its operation needs
(`Description.Complete`).  So none of the steps ever fails because it lacks a field, in whatever
state it is performed, and none is reported as skipped for that.

## Strategy

* The descriptions of a reader, those that are finished and the open one, are complete before and
  after every event, whatever the events are (`HoldsComplete.take`).  Only the closing of an
  operation adds a step, and only after it has looked for the fields of the step.
* The faults of a complete step are those of reading, of the operation itself and of writing; none
  of these is about a field that the step lacks (`own_perform`).
-/

namespace Remodel

/-- A step has a target with a name, and source fields if its operation reads one. -/
structure Step.Complete (step : Step) : Prop where
  target : ∃ field, step.target = some field ∧ field ≠ ""
  sources : step.operation.readsSource = true → step.sources ≠ []

/-- A description has known types and complete steps. -/
structure Description.Complete (types : TypeTable) (description : Description) : Prop where
  source : types.Knows description.source
  target : types.Knows description.target
  steps : ∀ step ∈ description.steps, step.Complete

theorem Description.Complete.addStep {types : TypeTable} {description : Description} {step : Step}
    (h : description.Complete types) (hstep : step.Complete) :
    (description.addStep step).Complete types where
  source := h.source
  target := h.target
  steps other hother := by
    rcases List.mem_append.mp hother with hold | hnew
    · exact h.steps other hold
    · rwa [List.mem_singleton.mp hnew]

/-! ## What complete steps fail of -/

namespace TransformState

variable (state : TransformState)

theorem own_read (field : String) : FaultsIn OwnFault (state.read field) := by
  unfold read
  split
  · cases state.temporary.lookup field with
    | some value => exact faultsIn_ok value
    | none => exact faultsIn_error rfl
  · cases state.source.descriptor.field? field with
    | none => exact faultsIn_error rfl
    | some _ =>
        dsimp only
        cases state.source.get? field with
        | some value => exact faultsIn_ok value
        | none => exact faultsIn_error rfl

theorem own_write (field : String) (value : Value) :
    FaultsIn OwnFault (state.write field value) := by
  unfold write
  split
  · exact faultsIn_ok _
  · cases state.target.descriptor.field? field with
    | none => exact faultsIn_error rfl
    | some declared =>
        dsimp only
        cases declared.kind.coerce value with
        | error fault => exact faultsIn_error rfl
        | ok coerced =>
            dsimp only
            cases state.target.set field coerced with
            | error fault => exact faultsIn_error rfl
            | ok target => exact faultsIn_ok _

variable {step : Step}

/-- With the source fields that it needs, a step computes a value or has a fault that is not about
its fields. -/
theorem own_compute (hsources : step.operation.readsSource = true → step.sources ≠ []) :
    FaultsIn OwnFault (state.compute step).result := by
  have hreads : ∀ field ∈ step.sources,
      ReadsAlike (fun fault _ => OwnFault fault) id state state field field := fun field _ =>
    ⟨(own_read state field).related (fun _ hfault => hfault) fun _ => rfl, fun _ => rfl⟩
  have hsees : SeesAlike (fun fault _ => OwnFault fault) id state state step step :=
    ⟨rfl, rfl, List.forall₂_same.mpr hreads, fun hneeded hnone => absurd hnone (hsources hneeded),
      fun _ hfault => hfault⟩
  exact (compute_related hsees).faultsIn

/-- A complete step never fails because it lacks a field. -/
theorem own_perform (h : step.Complete) : FaultsIn OwnFault (state.perform step).result := by
  rw [perform, Attempt.result_bind]
  refine (own_compute state h.sources).bind fun computed => ?_
  obtain ⟨field, htarget, -⟩ := h.target
  cases computed with
  | none => exact faultsIn_ok state
  | some value =>
      simp only [htarget, Attempt.result_except]
      exact own_write state field value

end TransformState

/-! ## Readers -/

namespace Definition

open Markup (Event Tag Document)

namespace Reader

/-- The descriptions that a reader has read, the open one included. -/
def descriptions (reader : Reader) : List Description :=
  reader.finished ++ reader.active.toList

variable {types : TypeTable} {reader next : Reader}

/-- A description opens with the types that its attributes name, and without steps. -/
theorem complete_of_openTransformation (hkeyed : types.Keyed) {tag : Tag}
    (h : reader.openTransformation types tag = .ok next) :
    reader.active = none ∧ ∃ description : Description, description.Complete types ∧
      next = { reader with active := some description } := by
  unfold openTransformation at h
  cases hactive : reader.active with
  | some description =>
      rw [hactive] at h
      cases h
  | none =>
      rw [hactive] at h
      obtain ⟨given, -, h⟩ := bind_eq_ok h
      obtain ⟨sourceName, -, h⟩ := bind_eq_ok h
      obtain ⟨targetName, -, h⟩ := bind_eq_ok h
      obtain ⟨source, hsource, h⟩ := bind_eq_ok h
      obtain ⟨target, htarget, h⟩ := bind_eq_ok h
      refine ⟨rfl, _, ⟨?_, ?_, fun step hstep => ?_⟩, (Except.ok.inj h).symm⟩
      · exact ⟨source, (hkeyed.typeId_eq hsource).symm ▸ hsource, rfl⟩
      · exact ⟨target, (hkeyed.typeId_eq htarget).symm ▸ htarget, rfl⟩
      · cases hstep

/-- An operation closes without effect if none is open, and otherwise with a complete step. -/
theorem complete_of_closeOperation (h : reader.closeOperation.result = .ok next) :
    next = reader ∨ ∃ description step, reader.active = some description ∧ step.Complete ∧
      next.finished = reader.finished ∧ next.active = some (description.addStep step) := by
  rcases exists_of_closeOperation h with
    ⟨-, hsame⟩ | ⟨name, operation, description, -, hactive, hneeded, target, -, hfilled, rfl⟩
  · exact Or.inl hsame
  · refine Or.inr ⟨description, _, hactive, ⟨⟨target, rfl, hfilled⟩, fun hreads hnone => ?_⟩, rfl,
      rfl⟩
    rw [show operation.readsSource = true from hreads,
      show reader.sources = [] from hnone] at hneeded
    cases hneeded

/-- Every description that a reader has read is complete. -/
def HoldsComplete (types : TypeTable) (reader : Reader) : Prop :=
  ∀ description ∈ reader.descriptions, description.Complete types

theorem HoldsComplete.of_descriptions_eq (h : HoldsComplete types reader)
    (hsame : next.descriptions = reader.descriptions) : HoldsComplete types next := by
  intro description hdescription
  exact h description (hsame ▸ hdescription)

/-- A description without further steps is open behind the finished ones. -/
theorem HoldsComplete.open_ (h : HoldsComplete types reader) {description : Description}
    (hcomplete : description.Complete types) (hfinished : next.finished = reader.finished)
    (hactive : next.active = some description) : HoldsComplete types next := by
  intro other hother
  rw [descriptions, hfinished, hactive, Option.toList_some, List.mem_append,
    List.mem_singleton] at hother
  rcases hother with hold | rfl
  · exact h other (List.mem_append_left _ hold)
  · exact hcomplete

theorem HoldsComplete.opening (h : HoldsComplete types reader) (hkeyed : types.Keyed) {tag : Tag}
    (hnext : reader.opening types tag = .ok next) : HoldsComplete types next := by
  unfold Reader.opening at hnext
  cases helement : Element.named tag.name with
  | group =>
      rw [helement] at hnext
      rwa [← Except.ok.inj hnext]
  | transformation =>
      rw [helement] at hnext
      obtain ⟨-, description, hcomplete, rfl⟩ := complete_of_openTransformation hkeyed hnext
      exact h.open_ hcomplete rfl rfl
  | capture element =>
      rw [helement] at hnext
      simp only [openCapture] at hnext
      split at hnext
      · exact h.of_descriptions_eq (by rw [← Except.ok.inj hnext]; rfl)
      · cases hnext
  | param =>
      rw [helement] at hnext
      simp only [openParam_eq] at hnext
      cases hparam : paramOf tag with
      | error fault =>
          rw [hparam] at hnext
          cases hnext
      | ok entry =>
          rw [hparam] at hnext
          exact h.of_descriptions_eq (by rw [← Except.ok.inj hnext]; rfl)
  | operation name =>
      rw [helement] at hnext
      obtain ⟨_, operation, -, -, rfl⟩ := exists_of_openOperation hnext
      exact h.of_descriptions_eq rfl

theorem descriptions_closeCapture (reader : Reader) :
    reader.closeCapture.descriptions = reader.descriptions := by
  unfold closeCapture
  cases reader.capture with
  | none => rfl
  | some captured => cases captured <;> rfl

/-- The open description is finished as it is. -/
theorem descriptions_closeTransformation (h : reader.closeTransformation = .ok next) :
    next.descriptions = reader.descriptions := by
  obtain ⟨description, hactive, rfl⟩ := exists_of_closeTransformation h
  simp [descriptions, hactive]

theorem HoldsComplete.closing (h : HoldsComplete types reader) {name : String}
    (hnext : (reader.closing name).result = .ok next) : HoldsComplete types next := by
  unfold Reader.closing at hnext
  cases helement : Element.named name with
  | group =>
      rw [helement] at hnext
      rwa [← Except.ok.inj hnext]
  | param =>
      rw [helement] at hnext
      rwa [← Except.ok.inj hnext]
  | capture element =>
      rw [helement] at hnext
      rw [← Except.ok.inj hnext]
      exact h.of_descriptions_eq (descriptions_closeCapture reader)
  | transformation =>
      rw [helement] at hnext
      exact h.of_descriptions_eq
        (descriptions_closeTransformation ((Attempt.result_except _).symm.trans hnext))
  | operation other =>
      rw [helement] at hnext
      rcases complete_of_closeOperation hnext with
        rfl | ⟨description, step, hactive, hstep, hfinished, hadded⟩
      · exact h
      · have hopen : description.Complete types :=
          h description (List.mem_append_right _ (by rw [hactive]; exact List.mem_singleton_self _))
        exact h.open_ (hopen.addStep hstep) hfinished hadded

theorem descriptions_text (reader : Reader) (content : String) :
    (reader.text content).descriptions = reader.descriptions := by
  unfold Reader.text
  split <;> rfl

/-- One event. -/
theorem HoldsComplete.take (h : HoldsComplete types reader) (hkeyed : types.Keyed) {event : Event}
    (hnext : (reader.take types event).result = .ok next) : HoldsComplete types next := by
  cases event with
  | opening tag => exact h.opening hkeyed ((Attempt.result_except _).symm.trans hnext)
  | closing name => exact h.closing hnext
  | text content =>
      rw [← Except.ok.inj hnext]
      exact h.of_descriptions_eq (descriptions_text reader content)
  | empty tag =>
      rw [Reader.take, Attempt.result_bind, Attempt.result_except] at hnext
      obtain ⟨middle, hopen, hclose⟩ := bind_eq_ok hnext
      exact (h.opening hkeyed hopen).closing hclose

/-- All events. -/
theorem HoldsComplete.takeAll (h : HoldsComplete types reader) (hkeyed : types.Keyed)
    {events : List Event} (hnext : (reader.takeAll types events).result = .ok next) :
    HoldsComplete types next := by
  induction events generalizing reader with
  | nil => rwa [← Except.ok.inj hnext]
  | cons event rest ih =>
      rw [Reader.takeAll, Attempt.result_bind] at hnext
      obtain ⟨middle, htake, hnext⟩ := bind_eq_ok hnext
      exact ih (h.take hkeyed htake) hnext

end Reader

/-! ## Whole documents -/

variable {types : TypeTable} {text : String} {descriptions : List Description}

theorem complete_of_read (hkeyed : types.Keyed) (h : (read types text).result = .ok descriptions) :
    ∀ description ∈ descriptions, description.Complete types := by
  obtain ⟨reader, hread, rfl, -⟩ := exists_of_read h
  have hstart : Reader.HoldsComplete types Reader.start := fun _ hmem => absurd hmem List.not_mem_nil
  exact fun description hdescription =>
    hstart.takeAll hkeyed hread description (List.mem_append_left _ hdescription)

/-- **Descriptions that are read are complete.**  Their types are known, their steps have targets and
the source fields that they need.  In no state does one of their steps fail because it lacks a
field, and no transformation reports a step as skipped for that, whatever the source is. -/
theorem complete_and_runs_of_read (hkeyed : types.Keyed)
    (h : (read types text).result = .ok descriptions) :
    ∀ description ∈ descriptions, description.Complete types ∧
      (∀ step ∈ description.steps, ∀ state : TransformState,
        (state.perform step).result ≠ .error .missingSource ∧
          (state.perform step).result ≠ .error .missingTarget) ∧
      ∀ (others : TypeTable) (source : Model) (name : String),
        .skippedStep name .missingSource ∉ (description.transform others source).run.notices ∧
          .skippedStep name .missingTarget ∉ (description.transform others source).run.notices := by
  intro description hdescription
  have hcomplete := complete_of_read hkeyed h description hdescription
  have hown : ∀ step ∈ description.steps, ∀ state : TransformState,
      FaultsIn OwnFault (state.perform step).result :=
    fun step hstep state => state.own_perform (hcomplete.steps step hstep)
  have hskipped : ∀ (others : TypeTable) (source : Model) (name : String) (fault : StepFault),
      .skippedStep name fault ∈ (description.transform others source).run.notices →
        OwnFault fault := by
    intro others source name fault hnotice
    obtain ⟨step, hstep, -, before, hfault⟩ := Description.exists_of_skipped hnotice
    exact hown step hstep before fault hfault
  refine ⟨hcomplete, fun step hstep state => ⟨fun hfault => ?_, fun hfault => ?_⟩,
    fun others source name => ⟨fun hnotice => ?_, fun hnotice => ?_⟩⟩
  · cases hown step hstep state _ hfault
  · cases hown step hstep state _ hfault
  · cases hskipped others source name _ hnotice
  · cases hskipped others source name _ hnotice

/-! ### A text with one step -/

namespace Labels

def table : TypeTable := TypeTable.empty.insertAll [Descriptor.named "Box", Descriptor.named "Label"]

def labels : String :=
  "<transformation source=\"Box\" target=\"Label\"><trim><source-field>name</source-field>" ++
    "<target-field>title</target-field></trim></transformation>"

def description : Description :=
  { Description.new "Box" "Label" with steps := [.trim "name" "title"] }

theorem ofText_labels : Document.ofText labels =
    ⟨[.opening ⟨"transformation", " source=\"Box\" target=\"Label\""⟩, .opening ⟨"trim", ""⟩,
      .opening ⟨"source-field", ""⟩, .text "name", .closing "source-field",
      .opening ⟨"target-field", ""⟩, .text "title", .closing "target-field", .closing "trim",
      .closing "transformation"], none⟩ := by
  decide +kernel

theorem complete_and_runs_of_labels :
    table.Keyed ∧ (read table labels).result = .ok [description] ∧ description.Complete table ∧
      ∀ state : TransformState,
        (state.perform (.trim "name" "title")).result ≠ .error .missingSource := by
  have hkeyed : table.Keyed := TypeTable.keyed_empty.insertAll _
  have hread : (read table labels).result = .ok [description] := by
    rw [read, ofText_labels]
    decide +kernel
  obtain ⟨hcomplete, hsteps, -⟩ :=
    complete_and_runs_of_read hkeyed hread description (List.mem_singleton_self _)
  exact ⟨hkeyed, hread, hcomplete, fun state => (hsteps _ (List.mem_singleton_self _) state).1⟩

end Labels

end Definition

end Remodel
