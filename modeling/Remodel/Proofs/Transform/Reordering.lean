import Remodel.Proofs.Transform.Outputs

/-!
# Steps that may change places

Two steps next to each other may change places if they write different fields and neither reads a
temporary field that the other one writes (`Independent`).  This goes for all operations, whether
the steps succeed or fail, and whatever stands before and behind them.

## Strategy

* What a step writes depends on the fields that it reads, so that the output of one step is the same
  before and after the other one (`output?_absorb`).
* Writing into different fields can be done in any order (`absorb_comm`), be they fields of the
  target or temporary ones.
* The state after both steps is therefore the same (`performOrSkip_comm`), and so is everything that
  follows.
-/

namespace Remodel

/-- Two steps write different fields, and neither reads a temporary field that the other writes. -/
structure Independent (a b : Step) : Prop where
  targets : ∀ field, a.target = some field → b.target ≠ some field
  first : ∀ field, a.target = some field → isTemporary field = true → field ∉ b.sources
  second : ∀ field, b.target = some field → isTemporary field = true → field ∉ a.sources

theorem Independent.symm {a b : Step} (h : Independent a b) : Independent b a where
  targets field hfield hother := h.targets field hother hfield
  first := h.second
  second := h.first

@[simp] theorem Instance.descriptor_put {α : Type} (model : Instance α) (field : String) (value : α) :
    (model.put field value).descriptor = model.descriptor := rfl

theorem Instance.put_comm {α : Type} (model : Instance α) {field name : String} (hne : field ≠ name)
    (v w : α) : (model.put field v).put name w = (model.put name w).put field v := by
  simp only [put, Table.insert_comm hne]

namespace TransformState

/-! ## Writing into different fields -/

section Write

variable (state : TransformState) {field name : String} (v w : Value)

/-- A temporary field and a field of the target are in different places. -/
theorem writeOrKeep_comm_of_temporary (hfield : isTemporary field = true)
    (hname : isTemporary name = false) :
    (state.writeOrKeep field v).writeOrKeep name w =
      (state.writeOrKeep name w).writeOrKeep field v := by
  rw [writeOrKeep_temporary _ _ hfield, writeOrKeep_temporary _ _ hfield,
    writeOrKeep_target _ _ hname, writeOrKeep_target _ _ hname]
  cases state.target.descriptor.fit? name w <;> rfl

theorem writeOrKeep_comm_of_target (hne : field ≠ name) (hfield : isTemporary field = false)
    (hname : isTemporary name = false) :
    (state.writeOrKeep field v).writeOrKeep name w =
      (state.writeOrKeep name w).writeOrKeep field v := by
  rw [writeOrKeep_target state v hfield, writeOrKeep_target state w hname]
  -- what fits depends on the type of the target, which a write leaves as it is
  cases hv : state.target.descriptor.fit? field v <;>
    cases hw : state.target.descriptor.fit? name w <;>
      simp [writeOrKeep_target, hfield, hname, hv, hw, Instance.put_comm _ hne]

/-- Different fields may be written in any order. -/
theorem writeOrKeep_comm (hne : field ≠ name) :
    (state.writeOrKeep field v).writeOrKeep name w =
      (state.writeOrKeep name w).writeOrKeep field v := by
  cases hfield : isTemporary field with
  | true =>
      cases hname : isTemporary name with
      | true =>
          simp only [writeOrKeep_temporary _ _ hfield, writeOrKeep_temporary _ _ hname,
            Table.insert_comm hne]
      | false => exact writeOrKeep_comm_of_temporary state v w hfield hname
  | false =>
      cases hname : isTemporary name with
      | true => exact (writeOrKeep_comm_of_temporary state w v hname hfield).symm
      | false => exact writeOrKeep_comm_of_target state v w hne hfield hname

/-- A write is seen by those who read the same temporary field. -/
theorem read_writeOrKeep (h : isTemporary field = true → name ≠ field) :
    (state.writeOrKeep field v).read name = state.read name := by
  cases hfield : isTemporary field with
  | true =>
      rw [writeOrKeep_temporary _ _ hfield]
      unfold read
      rw [Table.lookup_insert_of_ne _ _ (h hfield)]
  | false =>
      rw [writeOrKeep_target _ _ hfield]
      cases state.target.descriptor.fit? field v <;> rfl

end Write

/-! ## Two steps -/

section Pair

variable (state : TransformState) {a b : Step}

/-- What a step writes is the same before and after an independent one. -/
theorem output?_absorb (h : Independent a b) :
    (state.absorb (state.output? a)).output? b = state.output? b := by
  refine output?_congr fun field hfield => Eq.symm ?_
  cases houtput : state.output? a with
  | none => rfl
  | some written =>
      obtain ⟨name, value⟩ := written
      refine read_writeOrKeep state value fun htemporary => ?_
      rintro rfl
      exact h.first field (target_of_output? houtput) htemporary hfield

/-- The outputs of steps with different targets may be written in any order. -/
theorem absorb_comm (h : Independent a b) {x y : Option (String × Value)}
    (hx : state.output? a = x) (hy : state.output? b = y) :
    (state.absorb x).absorb y = (state.absorb y).absorb x := by
  cases x with
  | none => rfl
  | some first =>
      cases y with
      | none => rfl
      | some second =>
          refine writeOrKeep_comm state first.2 second.2 fun hsame => ?_
          have hfirst : a.target = some first.1 := target_of_output? hx
          have hsecond : b.target = some second.1 := target_of_output? hy
          exact h.targets _ hfirst (hsame ▸ hsecond)

/-- **Independent steps commute.**  The state after both is the same, as a whole. -/
theorem performOrSkip_comm (h : Independent a b) :
    ((state.performOrSkip a).value.performOrSkip b).value =
      ((state.performOrSkip b).value.performOrSkip a).value := by
  simp only [value_performOrSkip_eq_absorb]
  rw [output?_absorb state h, output?_absorb state h.symm, absorb_comm state h rfl rfl]

/-! ## Runs -/

theorem performAll_swap (h : Independent a b) (before after : List Step) :
    (state.performAll (before ++ a :: b :: after)).value =
      (state.performAll (before ++ b :: a :: after)).value := by
  rw [performAll_append, performAll_append]
  generalize (state.performAll before).value = middle
  exact congrArg (fun next => (next.performAll after).value) (performOrSkip_comm middle h)

end Pair

end TransformState

namespace Description

/-- **Independent steps may change places.**  Whatever steps stand before and behind them, the
result is the same for every source model, also where there is no target. -/
theorem transform_swap (types : TypeTable) (description : Description) (source : Model)
    {before after : List Step} {a b : Step} (h : Independent a b)
    (hsteps : description.steps = before ++ a :: b :: after) :
    ({ description with steps := before ++ b :: a :: after }.transform types source).result =
      (description.transform types source).result := by
  simp only [result_transform_eq, hsteps, TransformState.performAll_swap _ h]

end Description

/-! ## A temporary field that is written for a later step -/

namespace Greeting

theorem independent_trim_forward :
    Independent (.trim "name" "temp.short") (.forward "age" "note") where
  targets field hfield := by
    obtain rfl := Option.some.inj hfield
    decide
  first field hfield := by
    obtain rfl := Option.some.inj hfield
    decide
  second field hfield := by
    obtain rfl := Option.some.inj hfield
    decide

/-- The age may be copied before the name is shortened. -/
theorem transform_swap_note :
    ({ description with steps := [.forward "age" "note", .trim "name" "temp.short",
        .reverse "temp.short" "title"] }.transform types young).result =
      (description.transform types young).result := by
  have hsteps : description.steps = [] ++ .trim "name" "temp.short" :: .forward "age" "note" ::
      [.reverse "temp.short" "title"] := rfl
  have hswap := Description.transform_swap types description young independent_trim_forward hsteps
  rw [List.nil_append] at hswap
  exact hswap

end Greeting

end Remodel
