import Remodel.Proofs.Transform.Dependence

/-!
# Steps that fail

A step may fail when it reads, when it computes, when the value is coerced and when it is written.
`TransformState.perform` gives a new state or a fault, so nothing of a failed step can stay.  To
see that nothing has to be taken back either, the same step is performed on a state that changes
where it stands (`InPlace`): what is changed before a fault stays changed there.

* `outcome_perform`: performing in place gives what `perform` gives, and after a fault the state
  is the one before the step;
* `performAll_succeeding`: leaving out the steps that fail in a run changes neither the target nor
  a temporary field at any later point;
* `transform_withoutFailing`: so the target is that of the description without those steps.
-/

namespace Remodel

/-- A computation on a state that changes where it stands, also when a fault follows. -/
abbrev InPlace (α : Type) := ExceptT StepFault (StateT TransformState Traced) α

namespace InPlace

open TransformState

/-- The result of a computation, and the state that it leaves. -/
def outcome {α : Type} (program : InPlace α) (state : TransformState) :
    Except StepFault α × TransformState := (program.run.run state).value

/-- The value that a step computes from the present state. -/
def compute (step : Step) : InPlace (Option Value) :=
  ExceptT.mk fun state => (fun result => (result, state)) <$> (state.compute step).run

/-- Writes a field of the target after checking that it may be written. -/
def assign (field : String) (value : Value) : InPlace Unit := do
  let state ← get
  match state.target.descriptor.checkAssignment field value with
  | .ok () => set { state with target := state.target.put field value }
  | .error fault => throw (.field fault)

/-- Writes a temporary field as it is, or a field of the target after coercion. -/
def write (field : String) (value : Value) : InPlace Unit := do
  let state ← get
  if isTemporary field then
    set { state with temporary := Table.insert field value state.temporary }
  else
    match state.target.descriptor.field? field with
    | none => throw (.field (.noSuchField state.target.typeId field))
    | some declared =>
      match declared.kind.coerce value with
      | .error fault => throw (.coercion fault)
      | .ok coerced => assign field coerced

/-- Performs a step. -/
def perform (step : Step) : InPlace Unit := do
  match ← compute step with
  | none => return ()
  | some value =>
    match step.target with
    | none => throw .missingTarget
    | some field => write field value

/-- The state that steps leave one after another.  After a fault the next step goes on with
whatever the failed one has left. -/
def performAll (state : TransformState) : List Step → TransformState
  | [] => state
  | step :: rest => performAll (outcome (perform step) state).2 rest

/-- The steps that succeed in a run, each performed on what the steps before it have left. -/
def succeeding (state : TransformState) : List Step → List Step
  | [] => []
  | step :: rest =>
    match outcome (perform step) state with
    | (.ok (), next) => step :: succeeding next rest
    | (.error _, next) => succeeding next rest

/-! ## A step in place -/

section Outcome

variable {α β : Type} (state : TransformState)

/-- What follows goes on with the state that is left, and does not happen after a fault. -/
theorem outcome_bind (first : InPlace α) (next : α → InPlace β) :
    outcome (first >>= next) state =
      match outcome first state with
      | (.ok a, left) => outcome (next a) left
      | (.error fault, left) => (.error fault, left) := by
  unfold outcome ExceptT.run StateT.run
  change (ExceptT.bindCont next (first state).value.1 (first state).value.2).value = _
  cases (first state).value with
  | mk result left => cases result <;> rfl

theorem outcome_get : outcome get state = (.ok state, state) := rfl

theorem outcome_compute (step : Step) :
    outcome (compute step) state = ((state.compute step).result, state) := rfl

end Outcome

/-- A new state, or a fault and the old state. -/
def settled (state : TransformState) : Except StepFault TransformState →
    Except StepFault Unit × TransformState
  | .ok next => (.ok (), next)
  | .error fault => (.error fault, state)

theorem outcome_assign (state : TransformState) (field : String) (value : Value) :
    outcome (assign field value) state = settled state
      (match state.target.set field value with
      | .error fault => .error (.field fault)
      | .ok target => .ok { state with target }) := by
  rw [assign, outcome_bind, outcome_get, Model.set]
  dsimp only
  cases state.target.descriptor.checkAssignment field value <;> rfl

theorem outcome_write (state : TransformState) (field : String) (value : Value) :
    outcome (write field value) state = settled state (state.write field value) := by
  rw [write, outcome_bind, outcome_get, TransformState.write]
  dsimp only
  split
  · rfl
  · cases state.target.descriptor.field? field with
    | none => rfl
    | some declared =>
        dsimp only
        cases declared.kind.coerce value with
        | error fault => rfl
        | ok coerced => exact outcome_assign state field coerced

/-- Performing a step in place gives what `TransformState.perform` gives, and a fault leaves the
state as it was. -/
theorem outcome_perform (state : TransformState) (step : Step) :
    outcome (perform step) state = settled state (state.perform step).result := by
  rw [perform, outcome_bind, outcome_compute, TransformState.perform, Attempt.result_bind]
  cases (state.compute step).result with
  | error fault => rfl
  | ok computed =>
      cases computed with
      | none => rfl
      | some value =>
          cases step.target with
          | none => rfl
          | some field =>
              rw [ok_bind]
              dsimp only
              rw [outcome_write, Attempt.result_except]

/-- A step that fails changes neither the target nor a temporary field. -/
theorem outcome_perform_of_error {state after : TransformState} {step : Step} {fault : StepFault}
    (h : outcome (perform step) state = (.error fault, after)) : after = state := by
  rw [outcome_perform] at h
  cases hresult : (state.perform step).result with
  | error other =>
      rw [hresult] at h
      exact (Prod.mk.inj h).2.symm
  | ok next =>
      rw [hresult] at h
      cases (Prod.mk.inj h).1

/-! ## A run in place -/

/-- A step that is performed or skipped leaves what it leaves in place. -/
theorem value_performOrSkip_eq (state : TransformState) (step : Step) :
    (state.performOrSkip step).value = (outcome (perform step) state).2 := by
  rw [outcome_perform, performOrSkip, Traced.value_bind]
  change _ = (settled state (state.perform step).run.value).2
  cases (state.perform step).run.value <;> rfl

theorem value_performAll_eq (state : TransformState) (steps : List Step) :
    (state.performAll steps).value = performAll state steps := by
  induction steps generalizing state with
  | nil => rfl
  | cons step rest ih =>
      rw [TransformState.performAll, Traced.value_bind, value_performOrSkip_eq, ih, performAll]

section Succeeding

variable {state next : TransformState} {step : Step} (rest : List Step)

theorem succeeding_of_ok (h : outcome (perform step) state = (.ok (), next)) :
    succeeding state (step :: rest) = step :: succeeding next rest := by
  rw [succeeding, h]

/-- What follows a step that fails starts where this step started. -/
theorem succeeding_of_error {fault : StepFault}
    (h : outcome (perform step) state = (.error fault, next)) :
    succeeding state (step :: rest) = succeeding state rest := by
  rw [succeeding, h, outcome_perform_of_error h]

theorem performAll_of_eq {result : Except StepFault Unit}
    (h : outcome (perform step) state = (result, next)) :
    performAll state (step :: rest) = performAll next rest := by
  rw [performAll, h]

end Succeeding

/-- The steps that succeed in a run lead to where the run leads. -/
theorem performAll_succeeding (state : TransformState) (steps : List Step) :
    performAll state (succeeding state steps) = performAll state steps := by
  induction steps generalizing state with
  | nil => rfl
  | cons step rest ih =>
      obtain ⟨result, next, hstep⟩ : ∃ result next, outcome (perform step) state = (result, next) :=
        ⟨_, _, rfl⟩
      rw [performAll_of_eq rest hstep]
      cases result with
      | ok done => rw [succeeding_of_ok rest hstep, performAll_of_eq _ hstep, ih]
      | error fault =>
          rw [succeeding_of_error rest hstep, outcome_perform_of_error hstep, ih]

/-- None of the steps that succeed in a run fails when the others are left out. -/
theorem succeeding_succeeding (state : TransformState) (steps : List Step) :
    succeeding state (succeeding state steps) = succeeding state steps := by
  induction steps generalizing state with
  | nil => rfl
  | cons step rest ih =>
      obtain ⟨result, next, hstep⟩ : ∃ result next, outcome (perform step) state = (result, next) :=
        ⟨_, _, rfl⟩
      cases result with
      | ok done => rw [succeeding_of_ok rest hstep, succeeding_of_ok _ hstep, ih]
      | error fault => rw [succeeding_of_error rest hstep, ih]

end InPlace

namespace Description

/-- The description without the steps that fail when it is performed on a source, beginning with
an empty target. -/
def withoutFailing (description : Description) (source blank : Model) : Description :=
  { description with steps := InPlace.succeeding ⟨source, blank, []⟩ description.steps }

/-- **A failed step is as if it were not there.**  Where the target type can be instantiated there
is always a target: the one that the steps make in place, and the one of the description without
the failing steps, none of which fails.  A step that fails leaves the target and all temporary
fields as they are, wherever it fails. -/
theorem transform_withoutFailing (types : TypeTable) (description : Description) (source : Model)
    {blank : Model} (htarget : types.instantiate description.target = .ok blank) :
    (∃ target, (description.transform types source).result = .ok target ∧
      (InPlace.performAll ⟨source, blank, []⟩ description.steps).target = target ∧
      ((description.withoutFailing source blank).transform types source).result = .ok target) ∧
    (description.withoutFailing source blank).withoutFailing source blank =
      description.withoutFailing source blank ∧
    ∀ (step : Step) (state after : TransformState) (fault : StepFault),
      InPlace.outcome (InPlace.perform step) state = (.error fault, after) →
        after.target = state.target ∧ after.temporary = state.temporary := by
  refine ⟨⟨_, result_transform htarget source, ?_, ?_⟩, ?_,
    fun step state after fault hfault => ?_⟩
  · rw [InPlace.value_performAll_eq]
  · have hwithout : types.instantiate (description.withoutFailing source blank).target =
        .ok blank := htarget
    rw [result_transform hwithout source, InPlace.value_performAll_eq, InPlace.value_performAll_eq,
      withoutFailing, InPlace.performAll_succeeding]
  · simp only [withoutFailing, InPlace.succeeding_succeeding]
  · obtain rfl := InPlace.outcome_perform_of_error hfault
    exact ⟨rfl, rfl⟩

end Description

/-! ## A step that fails at every stage -/

namespace Badge

def visitor : Descriptor := ⟨"Visitor", none, [⟨"name", .string, true⟩]⟩

def badge : Descriptor :=
  ⟨"Badge", none,
    [⟨"title", .string, true⟩, ⟨"number", .integer, true⟩, ⟨"issuer", .string, false⟩]⟩

def types : TypeTable := TypeTable.empty.insertAll [visitor, badge]

def ann : Model := ⟨visitor, [("name", .string "Ann")], none⟩

/-- The first four steps fail: nothing to read, no delimiter, no number, no field to write. -/
def description : Description :=
  ⟨"Visitor", "Badge", none, none,
    [.forward "temp.nothing" "title", ⟨.split, ["name"], some "temp.short", []⟩,
      .forward "name" "number", .forward "name" "issuer", .reverse "name" "temp.short",
      .forward "temp.short" "title"]⟩

theorem transform_withoutFailing_badge :
    types.instantiate description.target = .ok (Model.new badge) ∧
    description.withoutFailing ann (Model.new badge) =
      ⟨"Visitor", "Badge", none, none,
        [.reverse "name" "temp.short", .forward "temp.short" "title"]⟩ ∧
    ∃ target, (description.transform types ann).result = .ok target ∧
      ((description.withoutFailing ann (Model.new badge)).transform types ann).result =
        .ok target := by
  have hblank : types.instantiate description.target = .ok (Model.new badge) := rfl
  obtain ⟨target, hall, -, hwithout⟩ :=
    (Description.transform_withoutFailing types description ann hblank).1
  exact ⟨hblank, by decide, target, hall, hwithout⟩

end Badge

end Remodel
