import Mathlib.Data.List.Basic
import Remodel.Proofs.Transform.Computing
import Remodel.Proofs.Transform.Influence

/-!
# Fields of the target depend on what influences them

Two runs of the same steps are compared (`Agree`): the states are alike in one field of the
target, in all source fields that feed it and in all temporary fields that feed it.  What a step
computes depends on the fields that it reads, and not on labels.  So a step that writes the target
field, or a temporary field that feeds it, does alike in both states, whether it succeeds or fails;
and any other step changes nothing of what is compared, whatever it does on either side.
-/

namespace Remodel

open Description

namespace TransformState

/-! ## What a step does -/

/-- The state after a write, or the state before it if nothing can be written. -/
def writeOrKeep (state : TransformState) (field : String) (value : Value) : TransformState :=
  ((state.write field value).toOption).getD state

theorem writeOrKeep_temporary (state : TransformState) {field : String} (value : Value)
    (h : isTemporary field = true) :
    state.writeOrKeep field value =
      { state with temporary := Table.insert field value state.temporary } := by
  simp [writeOrKeep, write, h, Except.toOption]

theorem writeOrKeep_target (state : TransformState) {field : String} (value : Value)
    (h : isTemporary field = false) :
    state.writeOrKeep field value =
      match state.target.descriptor.fit? field value with
      | some fitting => { state with target := state.target.put field fitting }
      | none => state := by
  unfold writeOrKeep write
  rw [if_neg (by simp [h])]
  cases hdeclared : state.target.descriptor.field? field with
  | none => simp [Descriptor.fit?, hdeclared, Except.toOption]
  | some declared =>
      obtain rfl := Descriptor.name_of_field? hdeclared
      cases hcoerce : declared.kind.coerce value with
      | error fault => simp [Descriptor.fit?, Kind.fit?, hdeclared, hcoerce, Except.toOption]
      | ok coerced =>
          have hset := Model.toOption_set hdeclared hcoerce
          cases hwritten : state.target.set declared.name coerced with
          | error fault =>
              rw [hwritten] at hset
              rw [Option.map_eq_none_iff.mp hset.symm]
              simp [hcoerce, hwritten, Except.toOption]
          | ok target =>
              rw [hwritten] at hset
              obtain ⟨fitting, hfit, rfl⟩ := Option.map_eq_some_iff.mp hset.symm
              simp [hcoerce, hwritten, hfit, Except.toOption]

/-- A step leaves the state as it is, or writes the computed value into its target. -/
theorem value_performOrSkip (state : TransformState) (step : Step) :
    (state.performOrSkip step).value =
      match (state.compute step).result, step.target with
      | .ok (some value), some field => state.writeOrKeep field value
      | _, _ => state := by
  have hskip : (state.performOrSkip step).value = ((state.perform step).result.toOption).getD
      state := by
    unfold performOrSkip
    rw [Traced.value_bind]
    change _ = ((state.perform step).run.value.toOption).getD state
    cases (state.perform step).run.value <;> rfl
  rw [hskip, perform, Attempt.result_bind]
  cases (state.compute step).result with
  | error fault => rfl
  | ok computed =>
      cases computed with
      | none => rfl
      | some value =>
          cases step.target with
          | none => rfl
          | some field => simp [writeOrKeep]

/-! ## What a step computes -/

variable {labels : Option Nat → Option Nat} {a b : TransformState}

/-- Two readings fail alike, or give alike values. -/
def ReadAlike (labels : Option Nat → Option Nat) (x y : Except StepFault Value) : Prop :=
  relabel labels <$> x = relabel labels <$> y

theorem readAlike_cases {x y : Except StepFault Value} (h : ReadAlike labels x y) :
    (∃ fault, x = .error fault ∧ y = .error fault) ∨
      ∃ v w, x = .ok v ∧ y = .ok w ∧ relabel labels v = relabel labels w := by
  cases x with
  | error fault =>
      cases y with
      | error other => exact Or.inl ⟨fault, rfl, congrArg _ (Except.error.inj h).symm⟩
      | ok w => cases h
  | ok v =>
      cases y with
      | error fault => cases h
      | ok w => exact Or.inr ⟨v, w, rfl, rfl, Except.ok.inj h⟩

theorem ReadAlike.related {x y : Except StepFault Value} (h : ReadAlike labels x y) :
    Related Eq (AlikeValues labels) x y := by
  rcases readAlike_cases h with ⟨fault, rfl, rfl⟩ | ⟨v, w, rfl, rfl, hvw⟩
  · exact .error rfl
  · exact .ok hvw

/-- What a step computes depends on the fields that it reads. -/
theorem compute_alike {step : Step}
    (h : ∀ field ∈ step.sources, ReadAlike labels (a.read field) (b.read field)) :
    Option.map (relabel labels) <$> (a.compute step).result =
      Option.map (relabel labels) <$> (b.compute step).result := by
  have hsees : SeesAlike Eq labels a b step step :=
    ⟨rfl, rfl, List.forall₂_same.mpr fun field hfield => ⟨(h field hfield).related, fun _ => rfl⟩,
      fun _ _ => rfl, fun _ _ => rfl⟩
  exact (compute_related hsees).map_eq fun _ _ hcomputed => hcomputed

/-! ## Two runs -/

/-- Two states are alike in a field of the target, and in everything that feeds it. -/
structure Agree (labels : Option Nat → Option Nat) (steps : List Step) (target : String)
    (a b : TransformState) : Prop where
  sourceType : a.source.descriptor = b.source.descriptor
  sources : ∀ field ∈ a.source.descriptor.fieldNames, Feeds steps target field →
    AlikeIn labels field a.source b.source
  temporaries : ∀ field, isTemporary field = true → Feeds steps target field →
    (a.temporary.lookup field).map (relabel labels) =
      (b.temporary.lookup field).map (relabel labels)
  targetType : a.target.descriptor = b.target.descriptor
  result : AlikeIn labels target a.target b.target

variable {steps : List Step} {target : String}

theorem Agree.symm (h : Agree labels steps target a b) : Agree labels steps target b a where
  sourceType := h.sourceType.symm
  sources field hfield hfeeds := (h.sources field (by rwa [h.sourceType]) hfeeds).symm
  temporaries field htemporary hfeeds := (h.temporaries field htemporary hfeeds).symm
  targetType := h.targetType.symm
  result := h.result.symm

/-- States that agree give alike values for a field that feeds the target. -/
theorem Agree.read_alike (h : Agree labels steps target a b) {field : String}
    (hfeeds : Feeds steps target field) : ReadAlike labels (a.read field) (b.read field) := by
  unfold read
  cases htemporary : isTemporary field with
  | true =>
      have hlookup := h.temporaries field htemporary hfeeds
      simp only [if_true]
      cases ha : a.temporary.lookup field <;> cases hb : b.temporary.lookup field <;>
        simp_all [ReadAlike]
  | false =>
      simp only [Bool.false_eq_true, if_false, Instance.typeId, ← h.sourceType]
      cases hdeclared : a.source.descriptor.field? field with
      | none => rfl
      | some declared =>
          have hname : field ∈ a.source.descriptor.fieldNames := by
            rw [← Descriptor.name_of_field? hdeclared]
            exact List.mem_map_of_mem (Descriptor.mem_of_field? hdeclared)
          have hget := h.sources field hname hfeeds
          cases ha : a.source.get? field <;> cases hb : b.source.get? field <;>
            simp_all [ReadAlike, AlikeIn]

/-- Writing alike values into the same field keeps the agreement. -/
theorem Agree.writeOrKeep (h : Agree labels steps target a b) (field : String) {v w : Value}
    (hvw : relabel labels v = relabel labels w) :
    Agree labels steps target (a.writeOrKeep field v) (b.writeOrKeep field w) := by
  cases htemporary : isTemporary field with
  | true =>
      rw [writeOrKeep_temporary a v htemporary, writeOrKeep_temporary b w htemporary]
      exact ⟨h.sourceType, h.sources, fun name hname hfeeds =>
        lookup_insert_alike (h.temporaries name hname hfeeds) hvw field, h.targetType, h.result⟩
  | false =>
      rw [writeOrKeep_target a v htemporary, writeOrKeep_target b w htemporary, ← h.targetType]
      have hfit : (a.target.descriptor.fit? field v).map (relabel labels) =
          (a.target.descriptor.fit? field w).map (relabel labels) := by
        rw [← fit?_relabel, hvw, fit?_relabel]
      cases hv : a.target.descriptor.fit? field v with
      | none =>
          rw [hv] at hfit
          rw [Option.map_eq_none_iff.mp hfit.symm]
          exact h
      | some fitting =>
          rw [hv] at hfit
          obtain ⟨other, hw, hsame⟩ := Option.map_eq_some_iff.mp hfit.symm
          rw [hw]
          exact ⟨h.sourceType, h.sources, h.temporaries, h.targetType,
            h.result.put hsame.symm field⟩

/-- Writing into a field that is not compared, on one side, keeps the agreement. -/
theorem Agree.writeOrKeep_left (h : Agree labels steps target a b) {field : String} (value : Value)
    (hother : field ≠ target) (hfeeds : isTemporary field = true → ¬ Feeds steps target field) :
    Agree labels steps target (a.writeOrKeep field value) b := by
  cases htemporary : isTemporary field with
  | true =>
      rw [writeOrKeep_temporary a value htemporary]
      refine ⟨h.sourceType, h.sources, fun name hname hnameFeeds => ?_, h.targetType, h.result⟩
      have hne : name ≠ field := by
        rintro rfl
        exact hfeeds htemporary hnameFeeds
      rw [Table.lookup_insert_of_ne _ _ hne]
      exact h.temporaries name hname hnameFeeds
  | false =>
      rw [writeOrKeep_target a value htemporary]
      cases a.target.descriptor.fit? field value with
      | none => exact h
      | some fitting =>
          refine ⟨h.sourceType, h.sources, h.temporaries, h.targetType, ?_⟩
          rw [AlikeIn, Instance.get?_put_of_ne _ _ (Ne.symm hother)]
          exact h.result

/-- A step that writes nothing that is compared keeps the agreement on one side. -/
theorem Agree.performOrSkip_left (h : Agree labels steps target a b) {step : Step}
    (hother : ∀ field, step.target = some field → field ≠ target ∧
      (isTemporary field = true → ¬ Feeds steps target field)) :
    Agree labels steps target (a.performOrSkip step).value b := by
  rw [value_performOrSkip]
  split
  · rename_i value field _ hfield
    obtain ⟨hne, hfeeds⟩ := hother field hfield
    exact h.writeOrKeep_left value hne hfeeds
  · exact h

/-- A step that computes alike values on both sides keeps the agreement. -/
theorem Agree.performOrSkip_alike (h : Agree labels steps target a b) {step : Step}
    (hcompute : Option.map (relabel labels) <$> (a.compute step).result =
      Option.map (relabel labels) <$> (b.compute step).result) :
    Agree labels steps target (a.performOrSkip step).value (b.performOrSkip step).value := by
  rw [value_performOrSkip, value_performOrSkip]
  cases ha : (a.compute step).result with
  | error fault =>
      cases hb : (b.compute step).result with
      | error other => exact h
      | ok computed => rw [ha, hb] at hcompute; cases hcompute
  | ok computed =>
      cases hb : (b.compute step).result with
      | error fault => rw [ha, hb] at hcompute; cases hcompute
      | ok other =>
          rw [ha, hb, map_ok, map_ok, Except.ok.injEq] at hcompute
          cases computed with
          | none =>
              rw [Option.map_eq_none_iff.mp hcompute.symm]
              exact h
          | some v =>
              obtain ⟨w, rfl, hvw⟩ := Option.map_eq_some_iff.mp hcompute.symm
              cases step.target with
              | none => exact h
              | some field => exact h.writeOrKeep field hvw.symm

/-- Every step keeps the agreement. -/
theorem Agree.performOrSkip (h : Agree labels steps target a b) {step : Step}
    (hstep : step ∈ steps) :
    Agree labels steps target (a.performOrSkip step).value (b.performOrSkip step).value := by
  by_cases hrelevant : ∃ field, step.target = some field ∧
      (field = target ∨ isTemporary field = true ∧ Feeds steps target field)
  · -- the step reads only what feeds the target, and so computes the same in both states
    obtain ⟨written, hwritten, hcompared⟩ := hrelevant
    refine h.performOrSkip_alike (compute_alike fun field hfield => h.read_alike ?_)
    rcases hcompared with rfl | ⟨htemporary, hfeeds⟩
    · exact .direct hstep hfield hwritten
    · exact .through hstep hfield hwritten htemporary hfeeds
  · -- whatever the step does on either side, it does not touch what is compared
    have hother : ∀ field, step.target = some field → field ≠ target ∧
        (isTemporary field = true → ¬ Feeds steps target field) :=
      fun field hfield => ⟨fun heq => hrelevant ⟨field, hfield, Or.inl heq⟩,
        fun htemporary hfeeds => hrelevant ⟨field, hfield, Or.inr ⟨htemporary, hfeeds⟩⟩⟩
    exact ((h.performOrSkip_left hother).symm.performOrSkip_left hother).symm

/-- Any part of the steps, in any order, keeps the agreement. -/
theorem Agree.performAll (h : Agree labels steps target a b) {part : List Step} (hpart : part ⊆ steps) :
    Agree labels steps target (a.performAll part).value (b.performAll part).value := by
  induction part generalizing a b with
  | nil => exact h
  | cons step rest ih =>
      rw [List.cons_subset] at hpart
      exact ih (h.performOrSkip hpart.1) hpart.2

end TransformState

namespace Description

/-- The target is what the steps make of an empty one, if there is an empty one. -/
theorem result_transform_eq (types : TypeTable) (description : Description) (source : Model) :
    (description.transform types source).result =
      (fun blank =>
        (TransformState.performAll ⟨source, blank, []⟩ description.steps).value.target) <$>
          types.instantiate description.target := by
  unfold transform
  rw [Attempt.result_bind, Attempt.result_except]
  cases types.instantiate description.target with
  | error fault => rfl
  | ok blank =>
      rw [ok_bind, map_ok]
      by_cases htype : source.typeId = description.source <;> simp [htype]

theorem result_transform {types : TypeTable} {description : Description} {blank : Model}
    (htarget : types.instantiate description.target = .ok blank) (source : Model) :
    (description.transform types source).result =
      .ok (TransformState.performAll ⟨source, blank, []⟩ description.steps).value.target := by
  rw [result_transform_eq, htarget, map_ok]

/-- **The connections are sound.**  Two source models that are alike in every field that is
connected with a field of the target are turned into models that are alike in that field.  This
goes for every relabelling: for `id`, where alike is equal, as well as for one that forgets which
instances are the same. -/
theorem alikeIn_transform (types : TypeTable) (description : Description) (source : Descriptor)
    (s₁ s₂ : Model) (target : String) (labels : Option Nat → Option Nat) {blank : Model}
    (htype₁ : s₁.descriptor = source) (htype₂ : s₂.descriptor = source)
    (htemporary : isTemporary target = false)
    (htarget : types.instantiate description.target = .ok blank)
    (hsame : ∀ field ∈ source.fieldNames,
      ∀ targets ∈ (description.connections source).lookup field, target ∈ targets →
        AlikeIn labels field s₁ s₂) :
    ∃ t₁ t₂, (description.transform types s₁).result = .ok t₁ ∧
      (description.transform types s₂).result = .ok t₂ ∧ AlikeIn labels target t₁ t₂ := by
  refine ⟨_, _, result_transform htarget s₁, result_transform htarget s₂, ?_⟩
  -- before the first step only the sources can differ
  have hstart : TransformState.Agree labels description.steps target
      ⟨s₁, blank, []⟩ ⟨s₂, blank, []⟩ := by
    refine ⟨htype₁.trans htype₂.symm, fun field hfield hfeeds => ?_, fun _ _ _ => rfl, rfl, rfl⟩
    rw [htype₁] at hfield
    exact hsame field hfield _ (lookup_connections description hfield)
      (mem_influenced_iff.mpr ⟨htemporary, hfeeds⟩)
  exact (hstart.performAll fun _ h => h).result

end Description

/-! ## A text that goes through a temporary field -/

namespace Greeting

def person : Descriptor :=
  ⟨"Person", none, [⟨"name", .string, true⟩, ⟨"age", .integer, true⟩]⟩

def card : Descriptor := ⟨"Card", none, [⟨"title", .string, true⟩, ⟨"note", .string, true⟩]⟩

def types : TypeTable := TypeTable.empty.insertAll [person, card]

def description : Description :=
  ⟨"Person", "Card", none, none,
    [.trim "name" "temp.short", .forward "age" "note", .reverse "temp.short" "title"]⟩

def young : Model := ⟨person, [("age", .integer 20), ("name", .string " Ann ")], none⟩

def old : Model := ⟨person, [("age", .integer 80), ("name", .string " Ann ")], none⟩

/-- The age is not connected with the title. -/
theorem alikeIn_transform_title :
    ∃ t₁ t₂, (description.transform types young).result = .ok t₁ ∧
      (description.transform types old).result = .ok t₂ ∧ t₁.get? "title" = t₂.get? "title" := by
  have hblank : types.instantiate description.target = .ok (Model.new card) := rfl
  have hsame : ∀ field ∈ person.fieldNames,
      ∀ targets ∈ (description.connections person).lookup field, "title" ∈ targets →
        AlikeIn id field young old := fun field hfield targets htargets htitle => by
    have hfields : field = "name" ∨ field = "age" := by
      simpa [person, Descriptor.fieldNames] using hfield
    rcases hfields with rfl | rfl
    · rfl
    · rw [lookup_connections description hfield, Option.mem_some_iff] at htargets
      subst htargets
      exact absurd htitle (by decide +kernel)
  obtain ⟨t₁, t₂, h₁, h₂, halike⟩ := alikeIn_transform types description person young old "title"
    id rfl rfl (by decide) hblank hsame
  exact ⟨t₁, t₂, h₁, h₂, alikeIn_id_iff.mp halike⟩

end Greeting

end Remodel
