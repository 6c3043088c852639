import Remodel.Proofs.Codec.Base64
import Remodel.Proofs.Model.Coercing
import Remodel.Proofs.Record.Carrying
import Remodel.Proofs.Record.Restore
import Remodel.Proofs.Trace

/-!
# Reading what a record carries

A reader finds the shape of a value by the keys of the record.  Where the record carries a
value and holds nothing under its guard keys, the reader takes it for what it is: it stops where
the value ends, and what it reads is what is given back of the value, with variants as texts.

Coercion to the kind of the field turns these texts into variants again, and leaves everything
else as it is.
-/

namespace Remodel

open Record Value Rebuild

/-! ## Stored values -/

/-- A value that is no list or map as it is read from a record: a variant is a text. -/
def storedPlain : Value → Value
  | .enum name => .string name
  | value => value

/-- A value as it is read from a record. -/
def stored : Value → Value
  | .list items => .list (items.map storedPlain)
  | .map entries => .map (entries.map fun entry => (storedPlain entry.1, storedPlain entry.2))
  | value => storedPlain value

theorem stored_of_plain {value : Value} (h : value.isCollection = false) :
    stored value = storedPlain value := by
  cases value with
  | list items => simp [isCollection] at h
  | map entries => simp [isCollection] at h
  | _ => rfl

theorem coerce_storedPlain {kind : Kind} {value : Value} (haccepts : kind.accepts value = true) :
    kind.coerce (storedPlain value) = .ok value := by
  cases value with
  | enum name =>
      cases kind with
      | enum variants => exact if_pos haccepts
      | _ => cases haccepts
  | _ => exact Kind.coerce_of_accepts haccepts

/-! ## Reading under one key -/

/-- A model that gives the right value for every declared field: its type is the registered one,
names are declared once, no field's keys meet another's, and what is set fits its kind. -/
structure Sound (types : TypeTable) (model : Model) : Prop where
  registered : Registered types model
  names : model.descriptor.fieldNames.Nodup
  separate : ∀ field ∈ model.descriptor.fields, model.Separate field.name
  accepted : ∀ field ∈ model.descriptor.fields, ∀ value, model.get? field.name = some value →
    field.kind.accepts value = true

/-- The id leads to a record that gives back the model. -/
def Fetches (types : TypeTable) (nested : Nested) (source : RecordSource) (oid : String)
    (model : Model) : Prop :=
  (∀ inner ∈ occurrences model, Sound types inner) →
    ∃ child, source.fetch oid = .ok child ∧
      (nested model.typeId child).result = restoreModel types model

@[simp] theorem result_lift {α : Type} (result : Except Error α) :
    (Rebuilding.lift result).result = result.mapError RebuildFault.error := by
  cases result <;> rfl

section Reading

variable {types : TypeTable} {nested : Nested} {fetch : RecordFetch} {source : RecordSource}
  {record : Record} {key : String}

theorem result_readAt_of_unset (kind : Kind) (h : record.get? key = none) :
    (readAt nested fetch record key kind).result = .ok none := by
  simp [readAt, h]

/-- What is read as neither a model nor a file is the scalar under the key. -/
theorem result_readAt_scalar {kind : Kind} (hmodel : kind.isModel = false)
    (hfile : kind.isFile = false) :
    (readAt nested fetch record key kind).result =
      .ok ((record.get? key).map Scalar.toValue) := by
  cases hkey : record.get? key with
  | none => exact result_readAt_of_unset kind hkey
  | some scalar =>
      cases kind with
      | model typeId => simp [Kind.isModel] at hmodel
      | file => simp [Kind.isFile] at hfile
      | _ => simp [readAt, hkey]

theorem result_readAt_file {file : FileContent}
    (h : CarriesPlain (Fetches types nested source) record key (.file file)) :
    (readAt nested source record key .file).result = .ok (some (.file file)) := by
  obtain ⟨hcontent, hname⟩ := h
  simp [readAt, hcontent, readFile, Scalar.text?, Record.text?, hname, FileContent.decode?_encoded]

theorem result_readAt_model {model : Model}
    (hsound : ∀ inner ∈ occurrences model, Sound types inner)
    (h : CarriesPlain (Fetches types nested source) record key (.model model)) :
    (readAt nested source record key (.model model.typeId)).result =
      restoreValue types (.model model) := by
  obtain ⟨oid, hoid, hfetches⟩ := h
  obtain ⟨child, hchild, hnested⟩ := hfetches hsound
  simp [readAt, hoid, readModel, Scalar.text?, hchild, hnested, restoreValue]

/-- What is read under the key of a value that is no list or map. -/
theorem result_readAt {kind : Kind} {value : Value} (hplain : value.isCollection = false)
    (haccepts : kind.accepts value = true)
    (hsound : ∀ inner ∈ occurrencesInValue value, Sound types inner)
    (hcarries : CarriesPlain (Fetches types nested source) record key value) :
    (readAt nested source record key kind).result =
      Option.map storedPlain <$> restoreValue types value := by
  cases value with
  | model m =>
      cases kind with
      | model typeId =>
          obtain rfl : m.typeId = typeId := by simpa [Kind.accepts] using haccepts
          rw [result_readAt_model hsound hcarries, restoreValue]
          cases restoreModel types m with
          | error fault => rfl
          | ok restored => cases restored <;> rfl
      | _ => simp [Kind.accepts] at haccepts
  | file f =>
      cases kind with
      | file => rw [result_readAt_file hcarries]; rfl
      | _ => simp [Kind.accepts] at haccepts
  | list items => simp [isCollection] at hplain
  | map entries => simp [isCollection] at hplain
  | _ =>
      have hkind : kind.isModel = false ∧ kind.isFile = false := by
        cases kind <;> simp_all [Kind.accepts, Kind.isModel, Kind.isFile]
      rw [result_readAt_scalar hkind.1 hkind.2, hcarries]
      rfl

/-! ## Reading lists and maps -/

theorem result_readItems {kind : Kind} {index : Nat} {items : List Value}
    (haccepts : ∀ item ∈ items, kind.accepts item = true)
    (hsound : ∀ inner ∈ occurrencesInItems items, Sound types inner)
    (hcarries : CarriesItems (Fetches types nested source) record key index items) :
    (readItems nested source record key kind
      (List.range' index (leadingItems items).length)).result =
      List.map storedPlain <$> restoreItems types items := by
  induction items generalizing index with
  | nil => rfl
  | cons item rest ih =>
      rw [occurrencesInItems] at hsound
      rw [restoreItems]
      cases hitem : item.isCollection with
      | true =>
          -- the count ends before a list or map, and so does what is given back
          rw [leadingItems_cons_of_collection hitem]
          rfl
      | false =>
          rw [hitem] at hsound
          have hfirst := result_readAt hitem (haccepts item (List.mem_cons_self ..))
            (fun inner h => hsound inner (List.mem_append_left _ h)) (hcarries.1 hitem)
          have hrest := ih (fun i hi => haccepts i (List.mem_cons_of_mem item hi))
            (fun inner h => hsound inner (List.mem_append_right _ h)) hcarries.2
          rw [leadingItems_cons_of_plain hitem, List.length_cons, List.range'_succ, readItems,
            Attempt.result_bind, hfirst]
          cases restoreValue types item with
          | error fault => rfl
          | ok restored =>
              cases restored <;> cases hrestored : restoreItems types rest <;>
                simp [hrest, hrestored]

theorem result_readEntries {kinds : Kind × Kind} {index : Nat} {entries : List (Value × Value)}
    (haccepts : ∀ entry ∈ entries,
      kinds.1.accepts entry.1 = true ∧ kinds.2.accepts entry.2 = true)
    (hsound : ∀ inner ∈ occurrencesInEntries entries, Sound types inner)
    (hcarries : CarriesEntries (Fetches types nested source) record key index entries) :
    (readEntries nested source record key kinds
      (List.range' index (plainEntries entries).length)).result =
      List.map (fun entry => (storedPlain entry.1, storedPlain entry.2)) <$>
        restoreEntries types entries := by
  induction entries generalizing index with
  | nil => rfl
  | cons entry rest ih =>
      obtain ⟨k, v⟩ := entry
      rw [occurrencesInEntries] at hsound
      rw [CarriesEntries] at hcarries
      rw [restoreEntries]
      have haccepted := haccepts (k, v) (List.mem_cons_self ..)
      have hrestAccepts := fun e he => haccepts e (List.mem_cons_of_mem (k, v) he)
      have hrestSound := fun inner h => hsound inner (List.mem_append_right _ h)
      cases hentry : k.isCollection || v.isCollection with
      | true =>
          rw [if_pos hentry] at hcarries
          rw [plainEntries_cons_of_collection hentry, if_pos rfl]
          exact ih hrestAccepts hrestSound hcarries
      | false =>
          rw [hentry, if_neg (by simp)] at hcarries hsound
          obtain ⟨hk, hv⟩ := Bool.or_eq_false_iff.mp hentry
          have hkey := result_readAt hk haccepted.1 (fun inner h =>
            hsound inner (List.mem_append_left _ (List.mem_append_left _ h))) hcarries.1
          have hvalue := result_readAt hv haccepted.2 (fun inner h =>
            hsound inner (List.mem_append_left _ (List.mem_append_right _ h))) hcarries.2.1
          have hrest := ih hrestAccepts hrestSound hcarries.2.2
          rw [plainEntries_cons_of_plain hentry, List.length_cons, List.range'_succ, readEntries,
            if_neg (by simp), Attempt.result_bind, hkey]
          cases restoreValue types k with
          | error fault => rfl
          | ok restoredKey =>
              rw [map_ok, ok_bind, Attempt.result_bind, hvalue]
              cases restoreValue types v with
              | error fault => rfl
              | ok restoredValue =>
                  cases restoredKey <;> cases restoredValue <;>
                    cases hrestored : restoreEntries types rest <;> simp [hrest, hrestored]

end Reading

end Remodel
