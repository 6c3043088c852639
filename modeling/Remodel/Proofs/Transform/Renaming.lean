import Remodel.Proofs.Transform.Outputs
import Remodel.Proofs.Types

/-!
# Temporary names are only names

A run of renamed steps is followed beside the run of the steps (`RunsAlike`): the targets are the
same, and each temporary field holds under its new name what it holds under the old one.  The
sources need to agree only in fields that are not temporary; a type may declare fields with names of
temporary ones, but no step reads them, and none writes them (`get?_performAll_of_temporary`).

## Strategy

* A field reads the same under its new name (`RunsAlike.read`), so that a renamed step writes the
  same value under the new name of its target.
* Writing keeps the runs alike (`RunsAlike.writeOrKeep`): since different fields of the steps have
  different new names, no other temporary field is written over.
-/

namespace Remodel

/-- The step reads the field, or writes it. -/
def Step.Mentions (step : Step) (field : String) : Prop :=
  field ∈ step.sources ∨ step.target = some field

/-- New names for temporary fields, different ones for different fields of the steps. -/
structure TemporaryRenaming (steps : List Step) where
  rename : String → String
  temporary : ∀ field, isTemporary field = true → isTemporary (rename field) = true
  injective : ∀ step ∈ steps, ∀ other ∈ steps, ∀ field name, step.Mentions field →
    other.Mentions name → isTemporary field = true → isTemporary name = true →
      rename field = rename name → field = name

/-- Two models are of types with the same fields and hold the same in them, temporary names
apart. -/
structure AlikeBeyondTemporaries (a b : Model) : Prop where
  declared : ∀ field, isTemporary field = false →
    (a.descriptor.field? field).isSome = (b.descriptor.field? field).isSome
  values : ∀ field, isTemporary field = false → a.get? field = b.get? field

namespace TemporaryRenaming

variable {steps : List Step}

/-- The new name of a field; a field that is not temporary keeps its name. -/
def apply (naming : TemporaryRenaming steps) (field : String) : String :=
  if isTemporary field then naming.rename field else field

variable (naming : TemporaryRenaming steps) {field : String}

theorem apply_of_temporary (h : isTemporary field = true) :
    naming.apply field = naming.rename field := if_pos h

theorem apply_of_not_temporary (h : isTemporary field = false) : naming.apply field = field :=
  if_neg (by simp [h])

@[simp] theorem isTemporary_apply (field : String) :
    isTemporary (naming.apply field) = isTemporary field := by
  cases h : isTemporary field with
  | true => rw [naming.apply_of_temporary h, naming.temporary field h]
  | false => rw [naming.apply_of_not_temporary h, h]

end TemporaryRenaming

/-- The description with new names for its temporary fields. -/
def Description.rename (description : Description)
    (naming : TemporaryRenaming description.steps) : Description :=
  { description with steps := description.steps.map (Step.rename naming.apply) }

namespace TransformState

variable {steps : List Step} {naming : TemporaryRenaming steps} {a b : TransformState}
  {step : Step} {field : String}

/-- The second state is the first one with new names for the temporary fields of the steps. -/
structure RunsAlike (naming : TemporaryRenaming steps) (a b : TransformState) : Prop where
  source : AlikeBeyondTemporaries a.source b.source
  target : b.target = a.target
  temporaries : ∀ step ∈ steps, ∀ field, step.Mentions field → isTemporary field = true →
    b.temporary.lookup (naming.rename field) = a.temporary.lookup field

/-- A field reads the same under its new name, if it can be read. -/
theorem RunsAlike.read (h : RunsAlike naming a b) (hstep : step ∈ steps)
    (hfield : step.Mentions field) :
    (b.read (naming.apply field)).toOption = (a.read field).toOption := by
  unfold TransformState.read
  rw [naming.isTemporary_apply]
  cases htemporary : isTemporary field with
  | true =>
      rw [naming.apply_of_temporary htemporary, h.temporaries step hstep field hfield htemporary]
      cases a.temporary.lookup field <;> rfl
  | false =>
      have hdeclared := h.source.declared field htemporary
      rw [naming.apply_of_not_temporary htemporary, ← h.source.values field htemporary]
      cases ha : a.source.descriptor.field? field <;>
        cases hb : b.source.descriptor.field? field <;> rw [ha, hb] at hdeclared
      case none.none => rfl
      case some.some => cases a.source.get? field <;> rfl
      all_goals cases hdeclared

/-- The same value written under the old name and the new one keeps the states alike. -/
theorem RunsAlike.writeOrKeep (h : RunsAlike naming a b) (hstep : step ∈ steps)
    (hfield : step.Mentions field) (value : Value) :
    RunsAlike naming (a.writeOrKeep field value) (b.writeOrKeep (naming.apply field) value) := by
  cases htemporary : isTemporary field with
  | true =>
      have hrenamed := naming.temporary field htemporary
      rw [naming.apply_of_temporary htemporary, writeOrKeep_temporary a value htemporary,
        writeOrKeep_temporary b value hrenamed]
      refine ⟨h.source, h.target, fun other hother name hname hnameTemporary => ?_⟩
      by_cases hsame : name = field
      · rw [hsame, Table.lookup_insert_self, Table.lookup_insert_self]
      · have hapart : naming.rename name ≠ naming.rename field := fun heq =>
          hsame (naming.injective other hother step hstep name field hname hfield hnameTemporary
            htemporary heq)
        rw [Table.lookup_insert_of_ne _ _ hapart, Table.lookup_insert_of_ne _ _ hsame]
        exact h.temporaries other hother name hname hnameTemporary
  | false =>
      rw [naming.apply_of_not_temporary htemporary, writeOrKeep_target a value htemporary,
        writeOrKeep_target b value htemporary, h.target]
      cases a.target.descriptor.fit? field value with
      | none => exact h
      | some fitting => exact ⟨h.source, rfl, h.temporaries⟩

/-- A step and the renamed one keep the states alike. -/
theorem RunsAlike.performOrSkip (h : RunsAlike naming a b) (hstep : step ∈ steps) :
    RunsAlike naming (a.performOrSkip step).value
      (b.performOrSkip (step.rename naming.apply)).value := by
  rw [value_performOrSkip_eq_absorb, value_performOrSkip_eq_absorb,
    output?_rename fun field hfield => h.read hstep (Or.inl hfield)]
  cases houtput : a.output? step with
  | none => exact h
  | some written => exact h.writeOrKeep hstep (Or.inr (target_of_output? houtput)) written.2

theorem RunsAlike.performAll (h : RunsAlike naming a b) {part : List Step} (hpart : part ⊆ steps) :
    RunsAlike naming (a.performAll part).value
      (b.performAll (part.map (Step.rename naming.apply))).value := by
  induction part generalizing a b with
  | nil => exact h
  | cons step rest ih =>
      rw [List.cons_subset] at hpart
      exact ih (h.performOrSkip hpart.1) hpart.2

/-! ## Fields of the target with temporary names -/

/-- A step never writes a field of the target that has a temporary name. -/
theorem get?_performOrSkip_of_temporary (state : TransformState) (step : Step)
    (htemporary : isTemporary field = true) :
    (state.performOrSkip step).value.target.get? field = state.target.get? field := by
  rw [value_performOrSkip_eq_absorb]
  cases state.output? step with
  | none => rfl
  | some written =>
      change (state.writeOrKeep written.1 written.2).target.get? field = _
      cases hwritten : isTemporary written.1 with
      | true => rw [writeOrKeep_temporary _ _ hwritten]
      | false =>
          have hne : field ≠ written.1 := by
            rintro rfl
            rw [hwritten] at htemporary
            cases htemporary
          rw [writeOrKeep_target _ _ hwritten]
          cases state.target.descriptor.fit? written.1 written.2 with
          | none => rfl
          | some fitting => exact Instance.get?_put_of_ne _ _ hne

theorem get?_performAll_of_temporary (state : TransformState) (steps : List Step)
    (htemporary : isTemporary field = true) :
    (state.performAll steps).value.target.get? field = state.target.get? field := by
  induction steps generalizing state with
  | nil => rfl
  | cons step rest ih =>
      exact (ih (state.performOrSkip step).value).trans
        (get?_performOrSkip_of_temporary state step htemporary)

end TransformState

namespace Description

/-- **Temporary names are only names.**  The renamed description makes the same target, or fails to
make one in the same way, also of a source that differs in fields with temporary names.  No such
field of the target is ever written. -/
theorem transform_rename (types : TypeTable) (description : Description)
    (naming : TemporaryRenaming description.steps) {source other : Model}
    (hsource : AlikeBeyondTemporaries source other) :
    ((description.rename naming).transform types other).result =
        (description.transform types source).result ∧
      ∀ target, (description.transform types source).result = .ok target →
        ∀ field, isTemporary field = true → target.get? field = none := by
  constructor
  · rw [result_transform_eq, result_transform_eq]
    change _ <$> types.instantiate description.target = _
    cases types.instantiate description.target with
    | error fault => rfl
    | ok blank =>
        have hstart : TransformState.RunsAlike naming ⟨source, blank, []⟩ ⟨other, blank, []⟩ :=
          ⟨hsource, rfl, fun _ _ _ _ _ => rfl⟩
        exact congrArg Except.ok (hstart.performAll fun _ hstep => hstep).target
  · intro target htransform field htemporary
    cases hblank : types.instantiate description.target with
    | error fault =>
        rw [result_transform_eq, hblank] at htransform
        cases htransform
    | ok blank =>
        rw [result_transform hblank] at htransform
        obtain ⟨descriptor, rfl⟩ := TypeTable.eq_new_of_instantiate hblank
        rw [← Except.ok.inj htransform,
          TransformState.get?_performAll_of_temporary _ _ htemporary]
        rfl

end Description

/-! ## Types that declare a field with a temporary name -/

namespace Masked

def person : Descriptor :=
  ⟨"Person", none, [⟨"name", .string, true⟩, ⟨"temp.name", .string, true⟩]⟩

def card : Descriptor := ⟨"Card", none, [⟨"title", .string, true⟩, ⟨"temp.name", .string, true⟩]⟩

def types : TypeTable := TypeTable.empty.insertAll [person, card]

def description : Description :=
  ⟨"Person", "Card", none, none,
    [.trim "name" "temp.name", .reverse "temp.name" "title", .forward "temp.name" "temp.copy"]⟩

def ann : Model := ⟨person, [("name", .string " Ann ")], none⟩

/-- The same person with something in the field that no step reads. -/
def masked : Model := ann.put "temp.name" (.string "Bob")

theorem ann_alike_masked : AlikeBeyondTemporaries ann masked where
  declared _ _ := rfl
  values field hfield := by
    refine (Instance.get?_put_of_ne ann _ ?_).symm
    rintro rfl
    exact absurd hfield (by decide)

/-- Every temporary field gets the prefix once more. -/
def naming : TemporaryRenaming description.steps where
  rename field := "temp." ++ field
  temporary field _ := by simp [isTemporary]
  injective _ _ _ _ _ _ _ _ _ _ heq := by simpa using heq

theorem transform_rename_masked :
    ((description.rename naming).transform types masked).result =
        (description.transform types ann).result ∧
      ∀ target, (description.transform types ann).result = .ok target →
        ∀ field, isTemporary field = true → target.get? field = none :=
  Description.transform_rename types description naming ann_alike_masked

end Masked

end Remodel
