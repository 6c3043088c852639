import Mathlib.Data.List.Basic
import Remodel.Model.Value

/-!
# The parts of a value

A value has itself as a part, and the parts of whatever stands in it: of the values of a model's
fields, of the elements of a list, and of the keys and values of a map.  What holds of all parts of
a value holds of all parts of whatever stands in it (`Throughout`).

`Value.nested_induction` is the induction that goes with it: a statement about all values follows
when it passes from what stands in a value to the value.
-/

namespace Remodel

mutual

/-- The value and what stands in it, at every depth. -/
def Value.parts : Value → List Value
  | .model m => .model m :: partsOfModel m
  | .list items => .list items :: partsOfItems items
  | .map entries => .map entries :: partsOfEntries entries
  | value => [value]
termination_by structural value => value

/-- The parts of the values of a model. -/
def partsOfModel : Instance Value → List Value
  | ⟨_, values, _⟩ => partsOfFields values
termination_by structural model => model

/-- The parts of the values of fields. -/
def partsOfFields : List (String × Value) → List Value
  | [] => []
  | (_, value) :: rest => value.parts ++ partsOfFields rest
termination_by structural values => values

/-- The parts of the elements of a list. -/
def partsOfItems : List Value → List Value
  | [] => []
  | item :: rest => item.parts ++ partsOfItems rest
termination_by structural items => items

/-- The parts of the keys and values of a map. -/
def partsOfEntries : List (Value × Value) → List Value
  | [] => []
  | (key, value) :: rest => key.parts ++ value.parts ++ partsOfEntries rest
termination_by structural entries => entries

end

/-- Whether every part of a value has a property. -/
def Value.Throughout (holds : Value → Prop) (value : Value) : Prop :=
  ∀ part ∈ value.parts, holds part

instance {holds : Value → Prop} [DecidablePred holds] : DecidablePred (Value.Throughout holds) :=
  fun value => inferInstanceAs (Decidable (∀ part ∈ value.parts, holds part))

namespace Value

theorem parts_list (items : List Value) : (list items).parts = list items :: partsOfItems items :=
  rfl

theorem parts_map (entries : List (Value × Value)) :
    (map entries).parts = map entries :: partsOfEntries entries := rfl

theorem parts_model (m : Model) : (model m).parts = model m :: partsOfFields m.values := by
  obtain ⟨descriptor, values, label⟩ := m
  rfl

theorem parts_of_plain {value : Value} (hmodel : value.model? = none)
    (hplain : value.isCollection = false) : value.parts = [value] := by
  cases value with
  | model m => cases hmodel
  | list items => cases hplain
  | map entries => cases hplain
  | _ => rfl

theorem partsOfFields_cons (entry : String × Value) (rest : List (String × Value)) :
    partsOfFields (entry :: rest) = entry.2.parts ++ partsOfFields rest := rfl

theorem partsOfItems_cons (item : Value) (rest : List Value) :
    partsOfItems (item :: rest) = item.parts ++ partsOfItems rest := rfl

theorem partsOfEntries_cons (entry : Value × Value) (rest : List (Value × Value)) :
    partsOfEntries (entry :: rest) = entry.1.parts ++ entry.2.parts ++ partsOfEntries rest := rfl

theorem self_mem_parts (value : Value) : value ∈ value.parts := by
  cases value with
  | model m => exact List.mem_cons_self ..
  | list items => exact List.mem_cons_self ..
  | map entries => exact List.mem_cons_self ..
  | _ => exact List.mem_singleton_self _

theorem parts_subset_of_lookup {values : List (String × Value)} {field : String} {value : Value}
    (h : values.lookup field = some value) : value.parts ⊆ partsOfFields values := by
  induction values with
  | nil => cases h
  | cons entry rest ih =>
      obtain ⟨name, own⟩ := entry
      rw [partsOfFields_cons]
      by_cases hname : field = name
      · subst hname
        obtain rfl : own = value := by simpa using h
        exact List.subset_append_left _ _
      · rw [Table.lookup_cons_of_ne own rest hname] at h
        exact List.subset_append_of_subset_right _ (ih h)

theorem mem_partsOfFields {values : List (String × Value)} {part : Value} :
    part ∈ partsOfFields values ↔ ∃ entry ∈ values, part ∈ entry.2.parts := by
  induction values with
  | nil => exact ⟨nofun, nofun⟩
  | cons first rest ih =>
      rw [partsOfFields_cons, List.mem_append, ih, List.exists_mem_cons_iff]

theorem mem_partsOfItems {items : List Value} {part : Value} :
    part ∈ partsOfItems items ↔ ∃ item ∈ items, part ∈ item.parts := by
  induction items with
  | nil => exact ⟨nofun, nofun⟩
  | cons first rest ih => rw [partsOfItems_cons, List.mem_append, ih, List.exists_mem_cons_iff]

theorem mem_partsOfEntries {entries : List (Value × Value)} {part : Value} :
    part ∈ partsOfEntries entries ↔
      ∃ entry ∈ entries, part ∈ entry.1.parts ∨ part ∈ entry.2.parts := by
  induction entries with
  | nil => exact ⟨nofun, nofun⟩
  | cons first rest ih =>
      rw [partsOfEntries_cons, List.mem_append, List.mem_append, ih, List.exists_mem_cons_iff]

/-! ## Properties of all parts -/

namespace Throughout

variable {holds : Value → Prop}

theorem self {value : Value} (h : value.Throughout holds) : holds value :=
  h value (self_mem_parts value)

theorem field {m : Model} (h : (model m).Throughout holds) {name : String} {value : Value}
    (hvalue : m.get? name = some value) : value.Throughout holds := by
  intro part hpart
  refine h part ?_
  rw [parts_model]
  exact List.mem_cons_of_mem _ (parts_subset_of_lookup hvalue hpart)

theorem of_plain {value : Value} (hmodel : value.model? = none)
    (hplain : value.isCollection = false) (h : holds value) : value.Throughout holds := by
  intro part hpart
  rw [parts_of_plain hmodel hplain] at hpart
  exact List.mem_singleton.mp hpart ▸ h

theorem model_iff {m : Model} : (model m).Throughout holds ↔
    holds (model m) ∧ ∀ part ∈ partsOfFields m.values, holds part := by
  unfold Throughout
  rw [parts_model, List.forall_mem_cons]

theorem list_iff {items : List Value} : (list items).Throughout holds ↔
    holds (list items) ∧ ∀ item ∈ items, item.Throughout holds := by
  unfold Throughout
  rw [parts_list, List.forall_mem_cons]
  refine and_congr_right fun _ => ?_
  simp only [mem_partsOfItems]
  constructor
  · intro h item hitem part hpart
    exact h part ⟨item, hitem, hpart⟩
  · rintro h part ⟨item, hitem, hpart⟩
    exact h item hitem part hpart

theorem item {items : List Value} (h : (list items).Throughout holds) {item : Value}
    (hitem : item ∈ items) : item.Throughout holds :=
  (list_iff.mp h).2 item hitem

theorem map_iff {entries : List (Value × Value)} : (map entries).Throughout holds ↔
    holds (map entries) ∧
      ∀ entry ∈ entries, entry.1.Throughout holds ∧ entry.2.Throughout holds := by
  unfold Throughout
  rw [parts_map, List.forall_mem_cons]
  refine and_congr_right fun _ => ?_
  simp only [mem_partsOfEntries]
  constructor
  · intro h entry hentry
    exact ⟨fun part hpart => h part ⟨entry, hentry, Or.inl hpart⟩,
      fun part hpart => h part ⟨entry, hentry, Or.inr hpart⟩⟩
  · rintro h part ⟨entry, hentry, hkey | hvalue⟩
    · exact (h entry hentry).1 part hkey
    · exact (h entry hentry).2 part hvalue

theorem key {entries : List (Value × Value)} (h : (map entries).Throughout holds)
    {entry : Value × Value} (hentry : entry ∈ entries) : entry.1.Throughout holds :=
  ((map_iff.mp h).2 entry hentry).1

theorem value {entries : List (Value × Value)} (h : (map entries).Throughout holds)
    {entry : Value × Value} (hentry : entry ∈ entries) : entry.2.Throughout holds :=
  ((map_iff.mp h).2 entry hentry).2

end Throughout

/-! ## Induction -/

/-- A statement holds of all values when it holds of those in which nothing stands, and of a model,
a list or a map whenever it holds of what stands in it. -/
@[elab_as_elim]
theorem nested_induction {motive : Value → Prop}
    (plain : ∀ value : Value, value.model? = none → value.isCollection = false → motive value)
    (model : ∀ m : Model, (∀ name value, m.get? name = some value → motive value) →
      motive (.model m))
    (list : ∀ items, (∀ item ∈ items, motive item) → motive (.list items))
    (map : ∀ entries : List (Value × Value),
      (∀ entry ∈ entries, motive entry.1 ∧ motive entry.2) → motive (.map entries))
    (value : Value) : motive value :=
  match value with
  | .model m => model m fun _ value _ => nested_induction plain model list map value
  | .list items => list items fun item _ => nested_induction plain model list map item
  | .map entries => map entries fun entry _ =>
    ⟨nested_induction plain model list map entry.1, nested_induction plain model list map entry.2⟩
  | .string _ => plain _ rfl rfl
  | .integer _ => plain _ rfl rfl
  | .float _ => plain _ rfl rfl
  | .boolean _ => plain _ rfl rfl
  | .bytes _ => plain _ rfl rfl
  | .enum _ => plain _ rfl rfl
  | .file _ => plain _ rfl rfl
termination_by sizeOf value
decreasing_by
  · rename_i hvalue
    have hlt := Table.sizeOf_lt_of_lookup hvalue
    obtain ⟨descriptor, values, label⟩ := m
    simp only [Value.model.sizeOf_spec, Instance.mk.sizeOf_spec]
    simp only at hlt
    omega
  · rename_i hitem
    have hlt := List.sizeOf_lt_of_mem hitem
    simp only [Value.list.sizeOf_spec]
    omega
  · rename_i hentry
    have hlt := List.sizeOf_lt_of_mem hentry
    obtain ⟨key, own⟩ := entry
    simp only [Value.map.sizeOf_spec, Prod.mk.sizeOf_spec] at hlt ⊢
    omega
  · rename_i hentry
    have hlt := List.sizeOf_lt_of_mem hentry
    obtain ⟨key, own⟩ := entry
    simp only [Value.map.sizeOf_spec, Prod.mk.sizeOf_spec] at hlt ⊢
    omega

end Value

end Remodel
