import Remodel.Proofs.Record.Gathering
import Remodel.Proofs.Record.Occurrences
import Remodel.Proofs.Record.Separation

/-!
# What rebuilding gives back

The model that is rebuilt from the records of a model, said without records
(`restoreModel`): an empty instance of the model's type that gets what is given back of each
writable field, and no model if nothing is.  A nested model is given back as far as it is
itself; of a list everything before its first list or map, of a map the entries that hold no
list or map, and neither of them if that is nothing.

Only types can make this fail.
-/

namespace Remodel

open Value

mutual

/-- The model that is given back of a model, if any. -/
def restoreModel (types : TypeTable) : Instance Value → Except RebuildFault (Option Model)
  | ⟨descriptor, values, _⟩ =>
    gatherModel types descriptor.typeId fun field => restoreField types field.name values
termination_by structural model => model

/-- What is given back of the value that a field holds. -/
def restoreField (types : TypeTable) (field : String) :
    List (String × Value) → Except RebuildFault (Option Value)
  | [] => return none
  | (name, value) :: rest =>
    if name = field then restoreValue types value else restoreField types field rest
termination_by structural values => values

/-- What is given back of a value, if anything. -/
def restoreValue (types : TypeTable) : Value → Except RebuildFault (Option Value)
  | .model m => do
    return (← restoreModel types m).map Value.model
  | .list items => do
    let restored ← restoreItems types items
    return if (leadingItems items).isEmpty then none else some (.list restored)
  | .map entries => do
    let restored ← restoreEntries types entries
    return if (plainEntries entries).isEmpty then none else some (.map restored)
  | value => return some value
termination_by structural value => value

/-- What is given back of the elements of a list before the first list or map. -/
def restoreItems (types : TypeTable) : List Value → Except RebuildFault (List Value)
  | [] => return []
  | item :: rest => do
    if item.isCollection then return []
    let restored ← restoreValue types item
    return restored.toList ++ (← restoreItems types rest)
termination_by structural items => items

/-- What is given back of the entries of a map that hold no list or map. -/
def restoreEntries (types : TypeTable) :
    List (Value × Value) → Except RebuildFault (List (Value × Value))
  | [] => return []
  | (key, value) :: rest => do
    if key.isCollection || value.isCollection then restoreEntries types rest
    else
      let key ← restoreValue types key
      let value ← restoreValue types value
      return (key.bind fun k => value.map (k, ·)).toList ++ (← restoreEntries types rest)
termination_by structural entries => entries

end

variable {types : TypeTable}

theorem restoreModel_eq (types : TypeTable) (model : Model) :
    restoreModel types model =
      gatherModel types model.typeId fun field => restoreField types field.name model.values := by
  cases model
  rw [restoreModel]
  rfl

theorem restoreField_eq (types : TypeTable) (field : String) (values : List (String × Value)) :
    restoreField types field values =
      match values.lookup field with
      | some value => restoreValue types value
      | none => .ok none := by
  induction values with
  | nil => rfl
  | cons entry rest ih =>
      obtain ⟨name, value⟩ := entry
      rw [restoreField]
      by_cases hname : name = field
      · simp [hname]
      · rw [if_neg hname, ih, Table.lookup_cons_of_ne value rest (Ne.symm hname)]

theorem restoreField_of_get? {model : Model} {field : String} {value : Value}
    (h : model.get? field = some value) :
    restoreField types field model.values = restoreValue types value := by
  rw [restoreField_eq]
  rw [show model.values.lookup field = some value from h]

theorem restoreField_of_unset {model : Model} {field : String} (h : model.get? field = none) :
    restoreField types field model.values = .ok none := by
  rw [restoreField_eq]
  rw [show model.values.lookup field = none from h]

/-- What is no model, list or map is given back as it is. -/
theorem restoreValue_of_scalar {value : Value} (hplain : value.isCollection = false)
    (hmodel : value.model? = none) : restoreValue types value = .ok (some value) := by
  cases value with
  | model m => simp [Value.model?] at hmodel
  | list items => simp [isCollection] at hplain
  | map entries => simp [isCollection] at hplain
  | _ => rfl

/-! ## Elements and entries -/

theorem restoreItems_cons_of_collection {item : Value} (h : item.isCollection = true)
    (rest : List Value) : restoreItems types (item :: rest) = .ok [] := by
  simp [restoreItems, h]

theorem restoreItems_cons_eq_ok {item : Value} {rest restored : List Value}
    (hitem : item.isCollection = false) (h : restoreItems types (item :: rest) = .ok restored) :
    ∃ first others, restoreValue types item = .ok first ∧ restoreItems types rest = .ok others ∧
      restored = first.toList ++ others := by
  rw [restoreItems, hitem] at h
  obtain ⟨first, hfirst, h⟩ := bind_eq_ok h
  obtain ⟨others, hothers, h⟩ := bind_eq_ok h
  exact ⟨first, others, hfirst, hothers, by simpa using h.symm⟩

theorem restoreEntries_cons_of_collection {k v : Value}
    (h : (k.isCollection || v.isCollection) = true) (rest : List (Value × Value)) :
    restoreEntries types ((k, v) :: rest) = restoreEntries types rest := by
  simp only [restoreEntries, h, if_true]

theorem restoreEntries_cons_eq_ok {k v : Value} {rest restored : List (Value × Value)}
    (hentry : (k.isCollection || v.isCollection) = false)
    (h : restoreEntries types ((k, v) :: rest) = .ok restored) :
    ∃ key value others, restoreValue types k = .ok key ∧ restoreValue types v = .ok value ∧
      restoreEntries types rest = .ok others ∧
      restored = (key.bind fun k => value.map (k, ·)).toList ++ others := by
  rw [restoreEntries, hentry] at h
  obtain ⟨key, hkey, h⟩ := bind_eq_ok h
  obtain ⟨value, hvalue, h⟩ := bind_eq_ok h
  obtain ⟨others, hothers, h⟩ := bind_eq_ok h
  exact ⟨key, value, others, hkey, hvalue, hothers, by simpa using h.symm⟩

theorem restoreItems_of_leadingItems_eq_nil {items : List Value} (h : leadingItems items = []) :
    restoreItems types items = .ok [] := by
  cases items with
  | nil => rfl
  | cons item rest =>
      cases hitem : item.isCollection with
      | true => exact restoreItems_cons_of_collection hitem rest
      | false => simp [leadingItems_cons_of_plain hitem] at h

theorem restoreEntries_of_plainEntries_eq_nil {entries : List (Value × Value)}
    (h : plainEntries entries = []) : restoreEntries types entries = .ok [] := by
  induction entries with
  | nil => rfl
  | cons entry rest ih =>
      obtain ⟨k, v⟩ := entry
      cases hentry : k.isCollection || v.isCollection with
      | true =>
          rw [plainEntries_cons_of_collection hentry] at h
          rw [restoreEntries_cons_of_collection hentry, ih h]
      | false => simp [plainEntries_cons_of_plain hentry] at h

/-! ## Kinds of what is given back -/

/-- The type that is registered under the id of the model's type, if any, is that type. -/
def Registered (types : TypeTable) (model : Model) : Prop :=
  ∀ descriptor, types.resolve model.typeId = .ok descriptor → descriptor = model.descriptor

theorem descriptor_of_restoreModel {model restored : Model} (hregistered : Registered types model)
    (h : restoreModel types model = .ok (some restored)) :
    restored.descriptor = model.descriptor := by
  rw [restoreModel_eq] at h
  obtain ⟨descriptor, hresolve, hdescriptor, -⟩ := of_gatherModel h
  rw [hdescriptor, hregistered descriptor hresolve]

/-- A model value is given back as the model that is given back. -/
theorem restoreValue_model_eq_ok {model : Model} {restored : Value}
    (h : restoreValue types (.model model) = .ok (some restored)) :
    ∃ m, restoreModel types model = .ok (some m) ∧ restored = .model m := by
  obtain ⟨found, hfound, h⟩ := bind_eq_ok h
  cases found with
  | none => simp at h
  | some m => exact ⟨m, hfound, by simpa using h.symm⟩

/-- The kind that accepts a value accepts what is given back of it. -/
theorem accepts_of_restoreValue {kind : Kind} {value restored : Value}
    (hregistered : ∀ model ∈ occurrencesInValue value, Registered types model)
    (hplain : value.isCollection = false) (haccepts : kind.accepts value = true)
    (h : restoreValue types value = .ok (some restored)) :
    kind.accepts restored = true ∧ restored.isCollection = false := by
  cases hmodel : value.model? with
  | none =>
      rw [restoreValue_of_scalar hplain hmodel] at h
      obtain rfl : value = restored := Option.some.inj (Except.ok.inj h)
      exact ⟨haccepts, hplain⟩
  | some model =>
      obtain rfl : value = .model model := by cases value <;> simp_all [Value.model?]
      obtain ⟨m, hm, rfl⟩ := restoreValue_model_eq_ok h
      have hself := hregistered model (by simp [occurrencesInValue, self_mem_occurrences])
      have htype : m.typeId = model.typeId :=
        congrArg Descriptor.typeId (descriptor_of_restoreModel hself hm)
      cases kind <;> simp_all [Kind.accepts, isCollection]

theorem accepts_of_restoreItems {kind : Kind} {items restored : List Value}
    (hregistered : ∀ model ∈ occurrencesInItems items, Registered types model)
    (haccepts : ∀ item ∈ items, kind.accepts item = true)
    (h : restoreItems types items = .ok restored) :
    ∀ item ∈ restored, kind.accepts item = true ∧ item.isCollection = false := by
  induction items generalizing restored with
  | nil =>
      obtain rfl : [] = restored := by simpa [restoreItems] using h
      simp
  | cons item rest ih =>
      rw [occurrencesInItems] at hregistered
      cases hitem : item.isCollection with
      | true =>
          -- what is given back of a list ends before its first list or map
          rw [restoreItems_cons_of_collection hitem] at h
          obtain rfl : [] = restored := Except.ok.inj h
          simp
      | false =>
          rw [hitem] at hregistered
          obtain ⟨first, others, hfirst, hothers, rfl⟩ := restoreItems_cons_eq_ok hitem h
          intro found hfound
          rcases List.mem_append.mp hfound with hfound | hfound
          · rw [Option.mem_toList.mp hfound] at hfirst
            exact accepts_of_restoreValue
              (fun model hm => hregistered model (List.mem_append_left _ hm)) hitem
              (haccepts item (List.mem_cons_self ..)) hfirst
          · exact ih (fun model hm => hregistered model (List.mem_append_right _ hm))
              (fun i hi => haccepts i (List.mem_cons_of_mem item hi)) hothers found hfound

theorem accepts_of_restoreEntries (kinds : Kind × Kind) {entries restored : List (Value × Value)}
    (hregistered : ∀ model ∈ occurrencesInEntries entries, Registered types model)
    (haccepts : ∀ entry ∈ entries,
      kinds.1.accepts entry.1 = true ∧ kinds.2.accepts entry.2 = true)
    (h : restoreEntries types entries = .ok restored) :
    ∀ entry ∈ restored, (kinds.1.accepts entry.1 = true ∧ entry.1.isCollection = false) ∧
      (kinds.2.accepts entry.2 = true ∧ entry.2.isCollection = false) := by
  induction entries generalizing restored with
  | nil =>
      obtain rfl : [] = restored := by simpa [restoreEntries] using h
      simp
  | cons entry rest ih =>
      obtain ⟨k, v⟩ := entry
      rw [occurrencesInEntries] at hregistered
      have hrestRegistered := fun model hm => hregistered model (List.mem_append_right _ hm)
      have hrestAccepts := fun e he => haccepts e (List.mem_cons_of_mem (k, v) he)
      cases hentry : k.isCollection || v.isCollection with
      | true =>
          rw [restoreEntries_cons_of_collection hentry] at h
          exact ih hrestRegistered hrestAccepts h
      | false =>
          rw [hentry] at hregistered
          obtain ⟨hk, hv⟩ := Bool.or_eq_false_iff.mp hentry
          obtain ⟨haccept, haccept'⟩ := haccepts (k, v) (List.mem_cons_self ..)
          obtain ⟨key, value, others, hkey, hvalue, hothers, rfl⟩ :=
            restoreEntries_cons_eq_ok hentry h
          intro found hfound
          rcases List.mem_append.mp hfound with hfound | hfound
          · obtain ⟨k', hk', hfound⟩ := Option.bind_eq_some_iff.mp (Option.mem_toList.mp hfound)
            obtain ⟨v', hv', rfl⟩ := Option.map_eq_some_iff.mp hfound
            rw [hk'] at hkey
            rw [hv'] at hvalue
            exact ⟨accepts_of_restoreValue (fun model hm => hregistered model
                (List.mem_append_left _ (List.mem_append_left _ hm))) hk haccept hkey,
              accepts_of_restoreValue (fun model hm => hregistered model
                (List.mem_append_left _ (List.mem_append_right _ hm))) hv haccept' hvalue⟩
          · exact ih hrestRegistered hrestAccepts hothers found hfound

end Remodel
