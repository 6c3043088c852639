import Remodel.Proofs.Trace
import Remodel.Transform.Perform

/-!
# What is reported of steps

A step is reported as skipped where it fails, with its fault, and nowhere else
(`exists_of_skipped`).  While a step computes and writes, other things may be reported, such as a
default that is used, but no skipped step (`quiet_perform`).
-/

namespace Remodel

/-- Whether a notice is about a step that is skipped. -/
def Notice.isSkip : Notice → Bool
  | skippedStep _ _ => true
  | _ => false

/-- A computation that reports no skipped step. -/
def Quiet {ε α : Type} (attempt : Attempt ε α) : Prop :=
  ∀ notice ∈ attempt.run.notices, notice.isSkip = false

section Quiet

variable {ε α β : Type}

theorem notices_traced (traced : Traced α) :
    (ExceptT.run (traced : Attempt ε α)).notices = traced.notices :=
  List.append_nil _

/-- What a sequence reports is reported by its first part, or by what follows on its value. -/
theorem mem_notices_bind {first : Attempt ε α} {next : α → Attempt ε β} {notice : Notice}
    (h : notice ∈ (first >>= next).run.notices) :
    notice ∈ first.run.notices ∨
      ∃ a, first.run.value = .ok a ∧ notice ∈ (next a).run.notices := by
  rw [ExceptT.run_bind, Traced.notices_bind, List.mem_append] at h
  refine h.imp_right fun hrest => ?_
  cases hvalue : first.run.value with
  | error fault =>
      rw [hvalue] at hrest
      cases hrest
  | ok a =>
      rw [hvalue] at hrest
      exact ⟨a, rfl, hrest⟩

theorem quiet_pure (a : α) : Quiet (pure a : Attempt ε α) := by
  intro notice hnotice
  cases hnotice

theorem quiet_throw (fault : ε) : Quiet (throw fault : Attempt ε α) := by
  intro notice hnotice
  cases hnotice

theorem quiet_except (value : Except ε α) : Quiet (value : Attempt ε α) := by
  cases value with
  | error fault => exact quiet_throw fault
  | ok a => exact quiet_pure a

theorem quiet_traced {traced : Traced α} (h : ∀ notice ∈ traced.notices, notice.isSkip = false) :
    Quiet (traced : Attempt ε α) := by
  intro notice hnotice
  rw [notices_traced] at hnotice
  exact h notice hnotice

theorem Quiet.bind {first : Attempt ε α} {next : α → Attempt ε β} (h : Quiet first)
    (hnext : ∀ a, Quiet (next a)) : Quiet (first >>= next) := by
  intro notice hnotice
  rcases mem_notices_bind hnotice with hfirst | ⟨a, -, hrest⟩
  · exact h notice hfirst
  · exact hnext a notice hrest

theorem quiet_note {notice : Notice} (h : notice.isSkip = false) :
    Quiet (Traced.note notice : Attempt ε Unit) :=
  quiet_traced fun other hother => by rwa [List.mem_singleton.mp hother]

end Quiet

theorem Params.quiet_indexOr (params : Params) (name : String) (default : Nat) :
    ∀ notice ∈ (params.indexOr name default).notices, notice.isSkip = false := by
  intro notice hnotice
  unfold indexOr at hnotice
  split at hnotice
  · cases hnotice
  · split at hnotice
    · cases hnotice
    · rw [Traced.notices_bind, Traced.notices_pure, List.append_nil] at hnotice
      rw [List.mem_singleton.mp hnotice]
      rfl

theorem Operators.quiet_split (text delimiter : String) (index : Nat) :
    ∀ notice ∈ (split text delimiter index).notices, notice.isSkip = false := by
  intro notice hnotice
  unfold split at hnotice
  cases hpart : (Text.parts delimiter text)[index]? with
  | some part =>
      rw [hpart] at hnotice
      cases hnotice
  | none =>
      rw [hpart] at hnotice
      rw [List.mem_singleton.mp hnotice]
      rfl

theorem Operators.quiet_substring (text : String) (first last : Nat) :
    Quiet (substring text first last) := by
  have hcut : ∀ stop : Nat, Quiet (ε := StepFault) (do
      if stop < first then throw (.invalidRange first stop text.toList.length)
      return String.ofList (sliceChars text.toList first stop)) := by
    intro stop
    split
    · exact (quiet_throw _).bind fun _ => quiet_pure _
    · exact (quiet_pure _).bind fun _ => quiet_pure _
  unfold substring
  dsimp only
  split
  · exact (quiet_note rfl).bind fun _ => hcut _
  · exact hcut last

namespace TransformState

/-- Whatever a step reports while it computes, it is not that a step is skipped. -/
theorem quiet_compute (state : TransformState) (step : Step) : Quiet (state.compute step) := by
  unfold compute
  cases step.operation
  case forward => exact (quiet_except _).bind fun _ => quiet_pure _
  case concat => exact quiet_pure _
  case split =>
    exact (quiet_except _).bind fun _ => (quiet_except _).bind fun _ =>
      (quiet_traced (Params.quiet_indexOr _ _ _)).bind fun _ =>
        (quiet_traced (Operators.quiet_split _ _ _)).bind fun _ => quiet_pure _
  case splitRegex =>
    exact (quiet_except _).bind fun _ => (quiet_except _).bind fun _ =>
      (quiet_traced (Params.quiet_indexOr _ _ _)).bind fun _ =>
        (quiet_except _).bind fun _ => quiet_pure _
  case map =>
    refine (quiet_except _).bind fun value => ?_
    cases Params.optional step.params value.display with
    | some mapped => exact quiet_pure _
    | none => exact quiet_pure _
  case substring =>
    exact (quiet_except _).bind fun _ => (quiet_traced (Params.quiet_indexOr _ _ _)).bind fun _ =>
      (quiet_traced (Params.quiet_indexOr _ _ _)).bind fun _ =>
        (Operators.quiet_substring _ _ _).bind fun _ => quiet_pure _
  case value =>
    dsimp only
    cases Params.optional step.params "value" with
    | some literal => exact quiet_pure _
    | none => exact (quiet_note rfl).bind fun _ => quiet_pure _
  case length =>
    refine (quiet_except _).bind fun value => ?_
    dsimp only
    cases value.measure? ((Params.optional step.params "lengthFunction").getD "length") with
    | some n => exact quiet_pure _
    | none => exact (quiet_note rfl).bind fun _ => quiet_pure _
  case replace =>
    exact (quiet_except _).bind fun _ => (quiet_except _).bind fun _ => quiet_pure _
  case pad =>
    exact (quiet_except _).bind fun _ => (quiet_except _).bind fun _ =>
      (quiet_except _).bind fun _ => (quiet_except _).bind fun _ => quiet_pure _
  case removeLeading =>
    exact (quiet_except _).bind fun _ => (quiet_except _).bind fun _ =>
      (quiet_traced (Params.quiet_indexOr _ _ _)).bind fun _ =>
        (quiet_except _).bind fun _ => quiet_pure _
  case instantiate =>
    exact (quiet_except _).bind fun _ => (quiet_except _).bind fun _ =>
      (quiet_except _).bind fun _ => quiet_pure _
  all_goals exact (quiet_except _).bind fun _ => quiet_pure _

theorem quiet_perform (state : TransformState) (step : Step) : Quiet (state.perform step) := by
  refine (quiet_compute state step).bind fun computed => ?_
  cases computed with
  | none => exact quiet_pure _
  | some value =>
      cases step.target with
      | none => exact quiet_throw _
      | some field => exact quiet_except _

/-- A step is reported as skipped where it fails. -/
theorem result_of_skipped {state : TransformState} {step : Step} {name : String}
    {fault : StepFault}
    (h : .skippedStep name fault ∈ (state.performOrSkip step).notices) :
    name = step.display ∧ (state.perform step).result = .error fault := by
  unfold performOrSkip at h
  rw [Traced.notices_bind, List.mem_append] at h
  rcases h with hquiet | hskipped
  · cases quiet_perform state step _ hquiet
  · rw [Attempt.result]
    cases hresult : (state.perform step).run.value with
    | ok next =>
        rw [hresult] at hskipped
        cases hskipped
    | error found =>
        rw [hresult] at hskipped
        obtain ⟨rfl, rfl⟩ := Notice.skippedStep.inj (List.mem_singleton.mp hskipped)
        exact ⟨rfl, rfl⟩

/-- In a run, too, a step is reported as skipped where it fails. -/
theorem exists_of_skipped {state : TransformState} {steps : List Step} {name : String}
    {fault : StepFault} (h : .skippedStep name fault ∈ (state.performAll steps).notices) :
    ∃ step ∈ steps, name = step.display ∧
      ∃ before : TransformState, (before.perform step).result = .error fault := by
  induction steps generalizing state with
  | nil => cases h
  | cons step rest ih =>
      rw [performAll, Traced.notices_bind, List.mem_append] at h
      rcases h with hfirst | hrest
      · obtain ⟨hname, hfault⟩ := result_of_skipped hfirst
        exact ⟨step, List.mem_cons_self .., hname, state, hfault⟩
      · obtain ⟨found, hfound, hname, hfault⟩ := ih hrest
        exact ⟨found, List.mem_cons_of_mem step hfound, hname, hfault⟩

end TransformState

/-- What a transformation reports as skipped are steps that fail. -/
theorem Description.exists_of_skipped {types : TypeTable} {description : Description}
    {source : Model} {name : String} {fault : StepFault}
    (h : .skippedStep name fault ∈ (description.transform types source).run.notices) :
    ∃ step ∈ description.steps, name = step.display ∧
      ∃ before : TransformState, (before.perform step).result = .error fault := by
  have hrun : ∀ start : TransformState,
      .skippedStep name fault ∈ (ExceptT.run (do
        let finished ← (start.performAll description.steps : Attempt Error TransformState)
        return finished.target)).notices →
      .skippedStep name fault ∈ (start.performAll description.steps).notices := by
    intro start hnotice
    rcases mem_notices_bind hnotice with hsteps | ⟨_, -, hnone⟩
    · rwa [notices_traced] at hsteps
    · cases hnone
  rcases mem_notices_bind h with hblank | ⟨blank, -, h⟩
  · cases quiet_except _ _ hblank
  dsimp only at h
  split at h
  · rcases mem_notices_bind h with htype | ⟨_, -, h⟩
    · cases quiet_note rfl _ htype
    · exact TransformState.exists_of_skipped (hrun _ h)
  · exact TransformState.exists_of_skipped (hrun _ h)

end Remodel
