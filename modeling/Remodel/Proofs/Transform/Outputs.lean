import Remodel.Proofs.Transform.Dependence

/-!
# What steps write

A step writes one value into one field, or nothing (`output?`), and the state after it is the state
before it with this written (`value_performOrSkip_eq_absorb`).  What is written depends on what the
source fields read as, whatever their names are, and on whether they can be read, but not on why
they cannot; where it is written depends on the target alone (`output?_rename`).
-/

namespace Remodel

/-- The step with other names for its fields. -/
def Step.rename (nameOf : String → String) (step : Step) : Step :=
  { step with sources := step.sources.map nameOf, target := step.target.map nameOf }

@[simp] theorem Step.rename_id (step : Step) : step.rename id = step := by
  simp [rename]

namespace TransformState

/-- The field and the value that a step would write. -/
def output? (state : TransformState) (step : Step) : Option (String × Value) :=
  match (state.compute step).result, step.target with
  | .ok (some value), some field => some (field, value)
  | _, _ => none

/-- The state after the write of an output. -/
def absorb (state : TransformState) : Option (String × Value) → TransformState
  | some (field, value) => state.writeOrKeep field value
  | none => state

theorem value_performOrSkip_eq_absorb (state : TransformState) (step : Step) :
    (state.performOrSkip step).value = state.absorb (state.output? step) := by
  rw [value_performOrSkip, output?]
  cases (state.compute step).result with
  | error fault => rfl
  | ok computed => cases computed <;> cases step.target <;> rfl

/-- A step writes into its target. -/
theorem target_of_output? {state : TransformState} {step : Step} {field : String} {value : Value}
    (h : state.output? step = some (field, value)) : step.target = some field := by
  unfold output? at h
  split at h
  · rename_i htarget
    rw [htarget, (Prod.mk.inj (Option.some.inj h)).1]
  · cases h

variable {a b : TransformState} {step : Step}

theorem readsAlike_of_toOption {field name : String}
    (h : (b.read name).toOption = (a.read field).toOption) :
    ReadsAlike (fun _ _ => True) id a b field name := by
  refine ⟨?_, fun _ => trivial⟩
  cases hfirst : a.read field <;> cases hsecond : b.read name <;> rw [hfirst, hsecond] at h
  case error.error => exact .error trivial
  case ok.ok => exact .ok (congrArg _ (Option.some.inj h).symm)
  all_goals cases h

/-- Where the fields of a step read the same under other names, the step with these names writes
the same. -/
theorem output?_rename {nameOf : String → String}
    (h : ∀ field ∈ step.sources, (b.read (nameOf field)).toOption = (a.read field).toOption) :
    b.output? (step.rename nameOf) =
      (a.output? step).map fun written => (nameOf written.1, written.2) := by
  have hsources : List.Forall₂ (ReadsAlike (fun _ _ => True) id a b) step.sources
      (step.sources.map nameOf) := by
    rw [List.forall₂_map_right_iff, List.forall₂_same]
    exact fun field hfield => readsAlike_of_toOption (h field hfield)
  have hsees : SeesAlike (fun _ _ => True) id a b step (step.rename nameOf) :=
    ⟨rfl, rfl, hsources, fun _ _ => trivial, fun _ _ => trivial⟩
  have hcomputed := compute_related hsees
  unfold output?
  rw [show (step.rename nameOf).target = step.target.map nameOf from rfl]
  generalize (a.compute step).result = first at hcomputed
  generalize (b.compute (step.rename nameOf)).result = second at hcomputed
  cases hcomputed with
  | error _ => rfl
  | @ok computed same hsame =>
      obtain rfl : computed = same := alikeComputed_id_iff.mp hsame
      cases computed <;> cases step.target <;> rfl

theorem output?_congr (h : ∀ field ∈ step.sources, a.read field = b.read field) :
    b.output? step = a.output? step := by
  have hsame : b.output? (step.rename id) = (a.output? step).map id :=
    output?_rename fun field hfield => congrArg Except.toOption (h field hfield).symm
  rwa [Step.rename_id, Option.map_id, id] at hsame

theorem performAll_append (state : TransformState) (before after : List Step) :
    (state.performAll (before ++ after)).value =
      ((state.performAll before).value.performAll after).value := by
  induction before generalizing state with
  | nil => rfl
  | cons step rest ih => exact ih (state.performOrSkip step).value

end TransformState

end Remodel
