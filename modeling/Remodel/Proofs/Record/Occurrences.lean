import Remodel.Model.Value

/-!
# Occurrences of models

The models that are met when a model is written: the model itself, and those in its set
fields, in the elements of its lists and in the entries of its maps, at every depth.  What
stands in a list or map inside another list or map is not met.

Two occurrences with one label are the same instance, so they must be the same model.  A
model in which they are is called coherent.
-/

namespace Remodel

mutual

/-- The occurrences of models in a model, the nested ones first. -/
def occurrences : Instance Value → List Model
  | ⟨descriptor, values, label⟩ =>
    (descriptor.fields.flatMap fun field => occurrencesInField field.name values) ++
      [⟨descriptor, values, label⟩]
termination_by structural model => model

/-- The occurrences of models in the value that a field holds. -/
def occurrencesInField (field : String) : List (String × Value) → List Model
  | [] => []
  | (name, value) :: rest =>
    if name = field then occurrencesInValue value else occurrencesInField field rest
termination_by structural values => values

/-- The occurrences of models in a value. -/
def occurrencesInValue : Value → List Model
  | .model m => occurrences m
  | .list items => occurrencesInItems items
  | .map entries => occurrencesInEntries entries
  | _ => []
termination_by structural value => value

/-- The occurrences of models in the elements of a list that are no lists or maps. -/
def occurrencesInItems : List Value → List Model
  | [] => []
  | item :: rest =>
    (if item.isCollection then [] else occurrencesInValue item) ++ occurrencesInItems rest
termination_by structural items => items

/-- The occurrences of models in the entries of a map that hold no lists or maps. -/
def occurrencesInEntries : List (Value × Value) → List Model
  | [] => []
  | (key, value) :: rest =>
    (if key.isCollection || value.isCollection then []
      else occurrencesInValue key ++ occurrencesInValue value) ++ occurrencesInEntries rest
termination_by structural entries => entries

end

/-- Occurrences with the same label are the same model. -/
def Model.Coherent (model : Model) : Prop :=
  ∀ a ∈ occurrences model, ∀ b ∈ occurrences model, a.label.isSome → a.label = b.label → a = b

theorem self_mem_occurrences (model : Model) : model ∈ occurrences model := by
  cases model
  simp [occurrences]

theorem occurrencesInField_eq (field : String) (values : List (String × Value)) :
    occurrencesInField field values =
      ((values.lookup field).map occurrencesInValue).getD [] := by
  induction values with
  | nil => rfl
  | cons entry rest ih =>
      obtain ⟨name, value⟩ := entry
      rw [occurrencesInField]
      by_cases hname : name = field
      · simp [hname]
      · rw [if_neg hname, ih, Table.lookup_cons_of_ne value rest (Ne.symm hname)]

/-- The occurrences in the value of a declared field are occurrences in the model. -/
theorem mem_occurrences_of_get? {model nested : Model} {field : Field} {value : Value}
    (hfield : field ∈ model.descriptor.fields) (hvalue : model.get? field.name = some value)
    (hnested : nested ∈ occurrencesInValue value) : nested ∈ occurrences model := by
  obtain ⟨descriptor, values, label⟩ := model
  have hlookup : values.lookup field.name = some value := hvalue
  rw [occurrences, List.mem_append, List.mem_flatMap]
  exact Or.inl ⟨field, hfield, by simpa [occurrencesInField_eq, hlookup] using hnested⟩

/-- The first occurrence with a label. -/
def instanceOf (model : Model) (label : Nat) : Model :=
  ((occurrences model).find? fun nested => nested.label = some label).getD model

/-- In a coherent model a label stands for every occurrence that carries it. -/
theorem Model.Coherent.instanceOf_eq {model nested : Model} (hcoherent : model.Coherent)
    (hnested : nested ∈ occurrences model) {label : Nat} (hlabel : nested.label = some label) :
    instanceOf model label = nested := by
  rw [instanceOf]
  cases hfound : (occurrences model).find? fun nested => nested.label = some label with
  | none => exact absurd hlabel (by simpa using List.find?_eq_none.mp hfound nested hnested)
  | some first =>
      have hfirst : first.label = some label := by simpa using List.find?_some hfound
      exact hcoherent first (List.mem_of_find?_eq_some hfound) nested hnested (by simp [hfirst])
        (hfirst.trans hlabel.symm)

end Remodel
