import Remodel.Proofs.Model.Relabelling
import Remodel.Proofs.Record.Restore

/-!
# Labels do not matter to what is given back

Labels tell a writer which instances it has met.  What is given back of a value is the same for a
relabelled value, so that two models that differ in the labels below a field give back the same
for it.
-/

namespace Remodel

open Value

variable {types : TypeTable} (labels : Option Nat → Option Nat)

theorem isEmpty_leadingItems_relabel (items : List Value) :
    (leadingItems (relabelItems labels items)).isEmpty = (leadingItems items).isEmpty := by
  cases items with
  | nil => rfl
  | cons item rest =>
      have hsame := isCollection_relabel labels item
      rw [relabelItems]
      cases hitem : item.isCollection with
      | true =>
          rw [hitem] at hsame
          rw [leadingItems_cons_of_collection hitem, leadingItems_cons_of_collection hsame]
      | false =>
          rw [hitem] at hsame
          rw [leadingItems_cons_of_plain hitem, leadingItems_cons_of_plain hsame]
          rfl

theorem isEmpty_plainEntries_relabel (entries : List (Value × Value)) :
    (plainEntries (relabelEntries labels entries)).isEmpty = (plainEntries entries).isEmpty := by
  induction entries with
  | nil => rfl
  | cons entry rest ih =>
      obtain ⟨k, v⟩ := entry
      have hsame : ((relabel labels k).isCollection || (relabel labels v).isCollection) =
          (k.isCollection || v.isCollection) := by
        rw [isCollection_relabel, isCollection_relabel]
      rw [relabelEntries]
      cases hentry : k.isCollection || v.isCollection with
      | true =>
          rw [hentry] at hsame
          rw [plainEntries_cons_of_collection hentry, plainEntries_cons_of_collection hsame, ih]
      | false =>
          rw [hentry] at hsame
          rw [plainEntries_cons_of_plain hentry, plainEntries_cons_of_plain hsame]
          rfl

mutual

theorem restoreModel_relabel : ∀ model : Instance Value,
    restoreModel types (relabelModel labels model) = restoreModel types model
  | ⟨descriptor, values, label⟩ => by
    rw [relabelModel, restoreModel, restoreModel]
    exact gatherModel_congr fun _ _ field _ => restoreField_relabel field.name values
termination_by structural model => model

theorem restoreField_relabel (field : String) : ∀ values : List (String × Value),
    restoreField types field (relabelValues labels values) = restoreField types field values
  | [] => rfl
  | (name, value) :: rest => by
    rw [relabelValues, restoreField, restoreField, restoreValue_relabel value,
      restoreField_relabel field rest]
termination_by structural values => values

/-- What is given back of a value does not depend on labels. -/
theorem restoreValue_relabel : ∀ value : Value,
    restoreValue types (relabel labels value) = restoreValue types value
  | .model m => by rw [relabel, restoreValue, restoreValue, restoreModel_relabel m]
  | .list items => by
    rw [relabel, restoreValue, restoreValue, restoreItems_relabel items,
      isEmpty_leadingItems_relabel]
  | .map entries => by
    rw [relabel, restoreValue, restoreValue, restoreEntries_relabel entries,
      isEmpty_plainEntries_relabel]
  | .string _ => rfl
  | .integer _ => rfl
  | .float _ => rfl
  | .boolean _ => rfl
  | .bytes _ => rfl
  | .enum _ => rfl
  | .file _ => rfl
termination_by structural value => value

theorem restoreItems_relabel : ∀ items : List Value,
    restoreItems types (relabelItems labels items) = restoreItems types items
  | [] => rfl
  | item :: rest => by
    rw [relabelItems, restoreItems, restoreItems, isCollection_relabel,
      restoreValue_relabel item, restoreItems_relabel rest]
termination_by structural items => items

theorem restoreEntries_relabel : ∀ entries : List (Value × Value),
    restoreEntries types (relabelEntries labels entries) = restoreEntries types entries
  | [] => rfl
  | (k, v) :: rest => by
    rw [relabelEntries, restoreEntries, restoreEntries, isCollection_relabel,
      isCollection_relabel, restoreValue_relabel k, restoreValue_relabel v,
      restoreEntries_relabel rest]
termination_by structural entries => entries

end

variable {labels}

theorem AlikeIn.restoreField_eq {field : String} {a b : Model} (h : AlikeIn labels field a b) :
    restoreField types field a.values = restoreField types field b.values := by
  unfold AlikeIn at h
  cases ha : a.get? field with
  | none =>
      rw [ha, Option.map_none] at h
      rw [restoreField_of_unset ha, restoreField_of_unset (Option.map_eq_none_iff.mp h.symm)]
  | some value =>
      rw [ha, Option.map_some] at h
      obtain ⟨other, hb, hsame⟩ := Option.map_eq_some_iff.mp h.symm
      rw [restoreField_of_get? ha, restoreField_of_get? hb, ← restoreValue_relabel labels value,
        ← hsame, restoreValue_relabel]

end Remodel
