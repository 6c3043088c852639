import Remodel.Proofs.Model.Comparing
import Remodel.Proofs.Record.Restore

/-!
# What is given back equals what was there

Of a model whose types can be instantiated and whose fields can be written, whose lists and maps
hold something and no further lists or maps, and which sets a field wherever it holds a model,
everything is given back: the model that is given back is equal to it, on whichever side of the
comparison it stands.

Floats that are not numbers are left out, for they differ from themselves.
-/

namespace Remodel

open Value

/-! ## Models that are given back whole -/

/-- A value that is no list or map, and no float that is not a number. -/
def Value.Simple (value : Value) : Prop := value.isCollection = false ∧ value.isNaN = false

instance : DecidablePred Value.Simple := fun value =>
  inferInstanceAs (Decidable (value.isCollection = false ∧ value.isNaN = false))

/-- A simple value, or a list or a map of some simple values. -/
structure Value.Regular (value : Value) : Prop where
  number : value.isNaN = false
  items : ∀ items ∈ value.items?, items ≠ [] ∧ ∀ item ∈ items, item.Simple
  entries : ∀ entries ∈ value.entries?,
    entries ≠ [] ∧ ∀ entry ∈ entries, entry.1.Simple ∧ entry.2.Simple

instance : DecidablePred Value.Regular := fun value =>
  decidable_of_iff
    (value.isNaN = false ∧ (∀ items ∈ value.items?, items ≠ [] ∧ ∀ item ∈ items, item.Simple) ∧
      ∀ entries ∈ value.entries?,
        entries ≠ [] ∧ ∀ entry ∈ entries, entry.1.Simple ∧ entry.2.Simple)
    ⟨fun ⟨h₁, h₂, h₃⟩ => ⟨h₁, h₂, h₃⟩, fun ⟨h₁, h₂, h₃⟩ => ⟨h₁, h₂, h₃⟩⟩

/-- A model whose type is registered without a factory and has only writable fields, with names
that can be told apart in a record; its set fields hold regular values that their kinds accept,
and some field is set. -/
structure Complete (types : TypeTable) (model : Model) : Prop where
  registered : types.entries.lookup model.typeId = some ⟨model.descriptor, none⟩
  writable : ∀ field ∈ model.descriptor.fields, field.writable = true
  names : model.descriptor.fieldNames.Nodup
  prefixFree : model.descriptor.PrefixFree
  accepted : ∀ field ∈ model.descriptor.fields, ∀ value ∈ model.get? field.name,
    field.kind.accepts value = true
  regular : ∀ field ∈ model.descriptor.fields, ∀ value ∈ model.get? field.name, value.Regular
  set : ∃ field ∈ model.descriptor.fields, (model.get? field.name).isSome = true

instance (types : TypeTable) (model : Model) : Decidable (Complete types model) :=
  decidable_of_iff
    (types.entries.lookup model.typeId = some ⟨model.descriptor, none⟩ ∧
      (∀ field ∈ model.descriptor.fields, field.writable = true) ∧
      model.descriptor.fieldNames.Nodup ∧ model.descriptor.PrefixFree ∧
      (∀ field ∈ model.descriptor.fields, ∀ value ∈ model.get? field.name,
        field.kind.accepts value = true) ∧
      (∀ field ∈ model.descriptor.fields, ∀ value ∈ model.get? field.name, value.Regular) ∧
      ∃ field ∈ model.descriptor.fields, (model.get? field.name).isSome = true)
    ⟨fun ⟨h₁, h₂, h₃, h₄, h₅, h₆, h₇⟩ => ⟨h₁, h₂, h₃, h₄, h₅, h₆, h₇⟩,
      fun ⟨h₁, h₂, h₃, h₄, h₅, h₆, h₇⟩ => ⟨h₁, h₂, h₃, h₄, h₅, h₆, h₇⟩⟩

variable {types : TypeTable}

theorem Value.Simple.regular {value : Value} (h : value.Simple) : value.Regular := by
  obtain ⟨hplain, hnumber⟩ := h
  cases value with
  | list items => simp [isCollection] at hplain
  | map entries => simp [isCollection] at hplain
  | _ => exact ⟨hnumber, by simp [items?], by simp [entries?]⟩

theorem Complete.resolve {model : Model} (h : Complete types model) :
    types.resolve model.typeId = .ok model.descriptor := by
  simp [TypeTable.resolve, h.registered]

theorem Complete.blank {model : Model} (h : Complete types model) :
    types.blank model.descriptor = .ok (Model.new model.descriptor) := by
  have hlookup : types.entries.lookup model.descriptor.typeId = some ⟨model.descriptor, none⟩ :=
    h.registered
  simp [TypeTable.blank, hlookup]

theorem Complete.writableFields {model : Model} (h : Complete types model) :
    model.descriptor.writableFields = model.descriptor.fields :=
  List.filter_eq_self.mpr h.writable

/-! ## Everything is given back -/

/-- What is given back of a value is there and equal to it. -/
def GivenBack (types : TypeTable) (value : Value) : Prop :=
  ∃ restored, restoreValue types value = .ok (some restored) ∧
    ∀ flipped, sameValue flipped restored value = true

theorem givenBack_of_scalar {value : Value} (hplain : value.isCollection = false)
    (hmodel : value.model? = none) (hself : ∀ flipped, sameValue flipped value value = true) :
    GivenBack types value :=
  ⟨value, restoreValue_of_scalar hplain hmodel, hself⟩

theorem isEmpty_leadingItems_eq_false {items : List Value} (hne : items ≠ [])
    (hsimple : ∀ item ∈ items, item.Simple) : (leadingItems items).isEmpty = false := by
  cases items with
  | nil => exact absurd rfl hne
  | cons item rest =>
      have hitem := (hsimple item (List.mem_cons_self ..)).1
      simp [leadingItems_cons_of_plain hitem]

theorem isEmpty_plainEntries_eq_false {entries : List (Value × Value)} (hne : entries ≠ [])
    (hsimple : ∀ entry ∈ entries, entry.1.Simple ∧ entry.2.Simple) :
    (plainEntries entries).isEmpty = false := by
  cases entries with
  | nil => exact absurd rfl hne
  | cons entry rest =>
      obtain ⟨k, v⟩ := entry
      obtain ⟨hk, hv⟩ := hsimple (k, v) (List.mem_cons_self ..)
      have hentry : (k.isCollection || v.isCollection) = false := by
        simp [hk.1, hv.1]
      simp [plainEntries_cons_of_plain hentry]

/-- A field can be given back when what it holds can be. -/
theorem exists_restoreField {model : Model} {field : String}
    (h : ∀ value, model.get? field = some value → GivenBack types value) :
    ∃ value, restoreField types field model.values = .ok value := by
  cases hvalue : model.get? field with
  | none => exact ⟨none, restoreField_of_unset hvalue⟩
  | some value =>
      obtain ⟨restored, hrestored, -⟩ := h value hvalue
      exact ⟨some restored, (restoreField_of_get? hvalue).trans hrestored⟩

/-- What is given back of a field is the same as what the field holds. -/
theorem sameField_of_restoreField {model restored : Model} {field : String} (flipped : Bool)
    (h : ∀ value, model.get? field = some value → GivenBack types value)
    (hget : restoreField types field model.values = .ok (restored.get? field)) :
    sameField flipped field restored.values (model.get? field) = true := by
  have hlookup : restored.values.lookup field = restored.get? field := rfl
  rw [sameField_eq, hlookup]
  cases hset : model.get? field with
  | none =>
      rw [restoreField_of_unset hset] at hget
      rw [← Except.ok.inj hget]
  | some own =>
      obtain ⟨back, hback, hsame⟩ := h own hset
      rw [restoreField_of_get? hset, hback] at hget
      rw [← Except.ok.inj hget]
      exact hsame flipped

/-- A model is given back when what its fields hold is. -/
theorem givenBack_model {model : Model} (hcomplete : Complete types model)
    (hfields : ∀ field ∈ model.descriptor.fields, ∀ value, model.get? field.name = some value →
      GivenBack types value) :
    ∃ restored, restoreModel types model = .ok (some restored) ∧
      ∀ flipped, sameModel flipped restored model = true := by
  have hwritable := hcomplete.writableFields
  have hread : ∀ field ∈ model.descriptor.writableFields,
      ∃ value, restoreField types field.name model.values = .ok value := by
    rw [hwritable]
    exact fun field hfield => exists_restoreField (hfields field hfield)
  -- the field that is set is the one for which there is a model to give back
  obtain ⟨field, hfield, hset⟩ := hcomplete.set
  obtain ⟨value, hvalue⟩ := Option.isSome_iff_exists.mp hset
  obtain ⟨found, hfound, -⟩ := hfields field hfield value hvalue
  rw [← hwritable] at hfield
  obtain ⟨restored, hrestored⟩ := exists_gatherModel hcomplete.resolve hcomplete.blank hread hfield
    ((restoreField_of_get? hvalue).trans hfound)
  have hmodel : restoreModel types model = .ok (some restored) :=
    (restoreModel_eq types model).trans hrestored
  have hregistered : Registered types model := fun descriptor hresolve =>
    Except.ok.inj (hresolve.symm.trans hcomplete.resolve)
  refine ⟨restored, hmodel, fun flipped =>
    sameModel_of_fields (descriptor_of_restoreModel hregistered hmodel) fun f hf => ?_⟩
  have hdeclared : f ∈ model.descriptor.writableFields := by rwa [hwritable]
  have hget := get?_of_gatherModel hrestored hcomplete.resolve hcomplete.names hdeclared
  exact sameField_of_restoreField flipped (hfields f hf) hget

mutual

theorem givenBack_instance : ∀ model : Instance Value,
    (∀ inner ∈ occurrences model, Complete types inner) →
    ∃ restored, restoreModel types model = .ok (some restored) ∧
      ∀ flipped, sameModel flipped restored model = true
  | ⟨descriptor, values, label⟩, hcomplete => by
    have hself := hcomplete _ (self_mem_occurrences _)
    refine givenBack_model hself fun field hfield value hvalue => ?_
    exact givenBack_field field.name values value hvalue (hself.regular field hfield value hvalue)
      fun inner hinner => hcomplete inner (mem_occurrences_of_get? hfield hvalue hinner)
termination_by structural model => model

theorem givenBack_field (field : String) : ∀ (values : List (String × Value)) (value : Value),
    values.lookup field = some value → value.Regular →
    (∀ inner ∈ occurrencesInValue value, Complete types inner) → GivenBack types value
  | [], _, hlookup, _, _ => by simp at hlookup
  | (name, own) :: rest, value, hlookup, hregular, hcomplete => by
    by_cases hname : name = field
    · subst hname
      obtain rfl : own = value := by simpa using hlookup
      exact givenBack_value own hregular hcomplete
    · rw [Table.lookup_cons_of_ne own rest (Ne.symm hname)] at hlookup
      exact givenBack_field field rest value hlookup hregular hcomplete
termination_by structural values => values

theorem givenBack_value : ∀ value : Value, value.Regular →
    (∀ inner ∈ occurrencesInValue value, Complete types inner) → GivenBack types value
  | .model m, _, hcomplete => by
    obtain ⟨restored, hrestored, hsame⟩ := givenBack_instance m hcomplete
    refine ⟨.model restored, ?_, fun flipped => ?_⟩
    · rw [restoreValue, hrestored]
      rfl
    · rw [sameValue]
      exact hsame flipped
  | .list items, hregular, hcomplete => by
    obtain ⟨hne, hsimple⟩ := hregular.items items rfl
    obtain ⟨restored, hrestored, hsame⟩ := givenBack_items items hsimple hcomplete
    refine ⟨.list restored, ?_, fun flipped => ?_⟩
    · rw [restoreValue, hrestored, isEmpty_leadingItems_eq_false hne hsimple]
      rfl
    · rw [sameValue]
      exact hsame flipped
  | .map entries, hregular, hcomplete => by
    obtain ⟨hne, hsimple⟩ := hregular.entries entries rfl
    obtain ⟨restored, hrestored, hsame⟩ := givenBack_entries entries hsimple hcomplete
    refine ⟨.map restored, ?_, fun flipped => sameValue_map hsame⟩
    rw [restoreValue, hrestored, isEmpty_plainEntries_eq_false hne hsimple]
    rfl
  | .float x, hregular, _ => by
    refine givenBack_of_scalar rfl rfl fun flipped => ?_
    have hself := float_beq_self hregular.number
    cases flipped <;> simp [sameValue, hself]
  | .string s, _, _ => givenBack_of_scalar rfl rfl fun flipped => by simp [sameValue]
  | .integer i, _, _ => givenBack_of_scalar rfl rfl fun flipped => by simp [sameValue]
  | .boolean b, _, _ => givenBack_of_scalar rfl rfl fun flipped => by simp [sameValue]
  | .bytes b, _, _ => givenBack_of_scalar rfl rfl fun flipped => by simp [sameValue]
  | .enum name, _, _ => givenBack_of_scalar rfl rfl fun flipped => by simp [sameValue]
  | .file f, _, _ => givenBack_of_scalar rfl rfl fun flipped => by simp [sameValue]
termination_by structural value => value

theorem givenBack_items : ∀ items : List Value, (∀ item ∈ items, item.Simple) →
    (∀ inner ∈ occurrencesInItems items, Complete types inner) →
    ∃ restored, restoreItems types items = .ok restored ∧
      ∀ flipped, sameItems flipped restored items = true
  | [], _, _ => ⟨[], rfl, fun _ => rfl⟩
  | item :: rest, hsimple, hcomplete => by
    have hitem := hsimple item (List.mem_cons_self ..)
    have hplain := hitem.1
    rw [occurrencesInItems, hplain] at hcomplete
    obtain ⟨first, hfirst, hsame⟩ := givenBack_value item hitem.regular
      fun inner hinner => hcomplete inner (List.mem_append_left _ hinner)
    obtain ⟨others, hothers, hsames⟩ := givenBack_items rest
      (fun i hi => hsimple i (List.mem_cons_of_mem item hi))
      fun inner hinner => hcomplete inner (List.mem_append_right _ hinner)
    refine ⟨first :: others, ?_, fun flipped => ?_⟩
    · simp [restoreItems, hplain, hfirst, hothers]
    · rw [sameItems, hsame, hsames]
      rfl
termination_by structural items => items

theorem givenBack_entries : ∀ entries : List (Value × Value),
    (∀ entry ∈ entries, entry.1.Simple ∧ entry.2.Simple) →
    (∀ inner ∈ occurrencesInEntries entries, Complete types inner) →
    ∃ restored, restoreEntries types entries = .ok restored ∧
      List.Forall₂ SameEntry restored entries
  | [], _, _ => ⟨[], rfl, .nil⟩
  | (k, v) :: rest, hsimple, hcomplete => by
    obtain ⟨hk, hv⟩ := hsimple (k, v) (List.mem_cons_self ..)
    have hentry : (k.isCollection || v.isCollection) = false := by
      simp [hk.1, hv.1]
    rw [occurrencesInEntries, hentry] at hcomplete
    obtain ⟨key, hkey, hsameKey⟩ := givenBack_value k hk.regular
      fun inner hinner => hcomplete inner (List.mem_append_left _ (List.mem_append_left _ hinner))
    obtain ⟨value, hvalue, hsameValue⟩ := givenBack_value v hv.regular
      fun inner hinner => hcomplete inner (List.mem_append_left _ (List.mem_append_right _ hinner))
    obtain ⟨others, hothers, hsames⟩ := givenBack_entries rest
      (fun entry he => hsimple entry (List.mem_cons_of_mem (k, v) he))
      fun inner hinner => hcomplete inner (List.mem_append_right _ hinner)
    refine ⟨(key, value) :: others, ?_, .cons ?_ hsames⟩
    · simp only [restoreEntries, hentry, hkey, hvalue, hothers]
      rfl
    · exact fun flipped => ⟨hsameKey flipped, hsameValue flipped⟩
termination_by structural entries => entries

end

end Remodel
