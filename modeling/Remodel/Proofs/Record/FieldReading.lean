import Remodel.Proofs.Model.Coercing
import Remodel.Proofs.Model.Fitting
import Remodel.Proofs.Record.Counting
import Remodel.Proofs.Record.Reading

/-!
# Reading the fields of a record

Which of a map, a list or a single value a reader takes a field for depends on the kind of the
field and on the keys of the record.  A field whose value the record carries, with nothing under
the guard keys, is taken for what it is, and gets what is given back of the value.

`readField` is what one field gets, coercion included; `result_readFields` says that reading
fields one after another gathers it.
-/

namespace Remodel

open Record Value Rebuild

variable {types : TypeTable} {nested : Nested} {source : RecordSource} {record : Record}
  {good : String → Model → Prop} {key : String}

/-! ## Keys that are there -/

theorem contains_of_get? {scalar : Scalar} (h : record.get? key = some scalar) :
    record.contains key = true := by
  simp [contains, h]

theorem contains_eq_false_of_get? (h : record.get? key = none) :
    record.contains key = false := by
  simp [contains, h]

theorem CarriesPlain.contains {value : Value} (h : CarriesPlain good record key value)
    (hplain : value.isCollection = false) : record.contains key = true := by
  cases value with
  | model m =>
      obtain ⟨oid, hoid, -⟩ := h
      exact contains_of_get? hoid
  | file f => exact contains_of_get? h.1
  | list items => simp [isCollection] at hplain
  | map entries => simp [isCollection] at hplain
  | _ => exact contains_of_get? h

theorem CarriesItems.contains {index : Nat} {items : List Value}
    (h : CarriesItems good record key index items) :
    ∀ i < (leadingItems items).length, record.contains (itemKey key (index + i)) = true := by
  induction items generalizing index with
  | nil => simp [leadingItems]
  | cons item rest ih =>
      intro i hi
      cases hitem : item.isCollection with
      | true =>
          rw [leadingItems_cons_of_collection hitem] at hi
          simp at hi
      | false =>
          rw [leadingItems_cons_of_plain hitem, List.length_cons] at hi
          cases i with
          | zero => exact (h.1 hitem).contains hitem
          | succ i =>
              rw [show index + (i + 1) = index + 1 + i by omega]
              exact ih h.2 i (by omega)

theorem CarriesEntries.contains {index : Nat} {entries : List (Value × Value)}
    (h : CarriesEntries good record key index entries) :
    ∀ i < (plainEntries entries).length, record.contains (entryKey key (index + i)) = true := by
  induction entries generalizing index with
  | nil => simp [plainEntries]
  | cons entry rest ih =>
      intro i hi
      obtain ⟨k, v⟩ := entry
      rw [CarriesEntries] at h
      cases hentry : k.isCollection || v.isCollection with
      | true =>
          rw [if_pos hentry] at h
          rw [plainEntries_cons_of_collection hentry] at hi
          exact ih h i hi
      | false =>
          rw [hentry, if_neg (by simp)] at h
          rw [plainEntries_cons_of_plain hentry, List.length_cons] at hi
          cases i with
          | zero => exact h.1.contains (Bool.or_eq_false_iff.mp hentry).1
          | succ i =>
              rw [show index + (i + 1) = index + 1 + i by omega]
              exact ih h.2.2 i (by omega)

/-! ## What a field is taken for -/

theorem result_readStored_of_absent {field : Field}
    (h : ∀ name ∈ absenceKeys field.name, record.get? name = none) :
    (readStored nested source record field).result = .ok none := by
  have hkey := h field.name (by simp [absenceKeys])
  have hitem := h (itemKey field.name 0) (by simp [absenceKeys])
  have hentry := h (entryKey field.name 0) (by simp [absenceKeys])
  have hmap : isStoredMap record field = false := by
    simp [isStoredMap, contains_eq_false_of_get? hentry]
  have hlist : isStoredList record field = false := by
    simp [isStoredList, contains_eq_false_of_get? hitem]
  simp [readStored, hmap, hlist, result_readAt_of_unset _ hkey]

theorem result_readStored_list {field : Field} {kind : Kind} {items : List Value}
    (hkind : field.kind = .list kind) (haccepts : ∀ item ∈ items, kind.accepts item = true)
    (hsound : ∀ inner ∈ occurrencesInItems items, Sound types inner)
    (hcarries : CarriesItems (Fetches types nested source) record field.name 0 items)
    (hguards : ∀ name ∈ guardKeys field.name (some (.list items)), record.get? name = none) :
    (readStored nested source record field).result =
      Option.map stored <$> restoreValue types (.list items) := by
  cases hcount : (leadingItems items).length with
  | zero =>
      -- no element was written before the first list or map, and so nothing is read
      have hnil := List.length_eq_zero_iff.mp hcount
      simp only [guardKeys, hcount] at hguards
      rw [result_readStored_of_absent hguards, restoreValue,
        restoreItems_of_leadingItems_eq_nil hnil]
      simp [hnil]
  | succ count =>
      have hpresent := hcarries.contains
      simp only [hcount, Nat.zero_add] at hpresent
      simp only [guardKeys, hcount, List.mem_cons, List.not_mem_nil, or_false] at hguards
      have hentry := hguards _ (Or.inl rfl)
      have hend := hguards _ (Or.inr rfl)
      have hmap : isStoredMap record field = false := by
        simp [isStoredMap, contains_eq_false_of_get? hentry]
      have hlist : isStoredList record field = true := by
        simp [isStoredList, hpresent 0 (Nat.succ_pos count), hkind, Kind.isList]
      -- the absent key behind the last element ends the count
      have hgapless := gaplessCount_eq (itemKey_injective field.name) hpresent hend
      have hread := result_readItems haccepts hsound hcarries
      rw [hcount] at hread
      have helement : field.kind.elementKind = kind := by simp [hkind, Kind.elementKind, Kind.item?]
      have hnonempty : (leadingItems items).isEmpty = false := by
        rw [List.isEmpty_eq_false_iff]
        exact List.ne_nil_of_length_eq_add_one hcount
      simp only [readStored, hmap, hlist, hgapless, helement, List.range_eq_range',
        Bool.false_eq_true, if_false, if_true, Attempt.result_bind, hread, restoreValue,
        hnonempty]
      cases restoreItems types items <;> simp [stored]

theorem result_readStored_map {field : Field} (kinds : Kind × Kind)
    {entries : List (Value × Value)} (hkind : field.kind = .map kinds.1 kinds.2)
    (haccepts : ∀ entry ∈ entries,
      kinds.1.accepts entry.1 = true ∧ kinds.2.accepts entry.2 = true)
    (hsound : ∀ inner ∈ occurrencesInEntries entries, Sound types inner)
    (hcarries : CarriesEntries (Fetches types nested source) record field.name 0 entries)
    (hguards : ∀ name ∈ guardKeys field.name (some (.map entries)), record.get? name = none) :
    (readStored nested source record field).result =
      Option.map stored <$> restoreValue types (.map entries) := by
  cases hcount : (plainEntries entries).length with
  | zero =>
      have hnil := List.length_eq_zero_iff.mp hcount
      simp only [guardKeys, hcount] at hguards
      rw [result_readStored_of_absent hguards, restoreValue,
        restoreEntries_of_plainEntries_eq_nil hnil]
      simp [hnil]
  | succ count =>
      have hpresent := hcarries.contains
      simp only [hcount, Nat.zero_add] at hpresent
      simp only [guardKeys, hcount, List.mem_cons, List.not_mem_nil, or_false,
        forall_eq] at hguards
      have hmap : isStoredMap record field = true := by
        simp [isStoredMap, hpresent 0 (Nat.succ_pos count), hkind, Kind.isMap]
      have hgapless := gaplessCount_eq (entryKey_injective field.name) hpresent hguards
      have hread := result_readEntries haccepts hsound hcarries
      rw [hcount] at hread
      have hentry : field.kind.entryOrSelf = kinds := by
        simp [hkind, Kind.entryOrSelf, Kind.entry?]
      have hnonempty : (plainEntries entries).isEmpty = false := by
        rw [List.isEmpty_eq_false_iff]
        exact List.ne_nil_of_length_eq_add_one hcount
      simp only [readStored, hmap, hgapless, hentry, List.range_eq_range', Bool.false_eq_true,
        if_false, if_true, Attempt.result_bind, hread, restoreValue, hnonempty]
      cases restoreEntries types entries <;> simp [stored]

theorem result_readStored_plain {field : Field} {value : Value}
    (hplain : value.isCollection = false) (haccepts : field.kind.accepts value = true)
    (hsound : ∀ inner ∈ occurrencesInValue value, Sound types inner)
    (hcarries : CarriesPlain (Fetches types nested source) record field.name value) :
    (readStored nested source record field).result =
      Option.map storedPlain <$> restoreValue types value := by
  have hcontains := hcarries.contains hplain
  have hkind : field.kind.isMap = false ∧ field.kind.isList = false := by
    cases hkind : field.kind <;> cases value <;>
      simp_all [Kind.accepts, Kind.isMap, Kind.isList, isCollection]
  have hmap : isStoredMap record field = false := by
    simp [isStoredMap, hkind.1, hcontains]
  have hlist : isStoredList record field = false := by
    simp [isStoredList, hkind.2, hcontains]
  simp only [readStored, hmap, hlist, Bool.false_eq_true, if_false]
  exact result_readAt hplain haccepts hsound hcarries

/-- A field is read as what is given back of the value that the record carries. -/
theorem result_readStored {field : Field} {value : Value}
    (haccepts : field.kind.accepts value = true)
    (hsound : ∀ inner ∈ occurrencesInValue value, Sound types inner)
    (hcarries : Carries (Fetches types nested source) record field.name value)
    (hguards : ∀ name ∈ guardKeys field.name (some value), record.get? name = none) :
    (readStored nested source record field).result =
      Option.map stored <$> restoreValue types value := by
  have hregistered := fun inner h => (hsound inner h).registered
  induction value using collection_cases with
  | plain value hplain =>
      rw [carries_of_plain hplain] at hcarries
      rw [result_readStored_plain hplain haccepts hsound hcarries]
      cases hrestored : restoreValue types value with
      | error fault => rfl
      | ok restored =>
          cases restored with
          | none => rfl
          | some found =>
              -- what is given back is no list or map either
              have hfound := accepts_of_restoreValue hregistered hplain haccepts hrestored
              simp [stored_of_plain hfound.2]
  | list items =>
      cases hkind : field.kind with
      | list kind =>
          rw [hkind] at haccepts
          exact result_readStored_list hkind (Kind.accepts_list.mp haccepts) hsound hcarries
            hguards
      | _ => simp [hkind, Kind.accepts] at haccepts
  | map entries =>
      cases hkind : field.kind with
      | map k v =>
          rw [hkind] at haccepts
          exact result_readStored_map (k, v) hkind (Kind.accepts_map.mp haccepts) hsound
            hcarries hguards
      | _ => simp [hkind, Kind.accepts] at haccepts

/-! ## What is read fits again -/

theorem Kind.fit?_stored_list {kind : Kind} {items : List Value} {restored : Value}
    (hregistered : ∀ model ∈ occurrencesInItems items, Registered types model)
    (haccepts : ∀ item ∈ items, kind.accepts item = true)
    (h : restoreValue types (.list items) = .ok (some restored)) :
    (Kind.list kind).fit? (stored restored) = some restored := by
  rw [restoreValue] at h
  obtain ⟨found, hitems, h⟩ := bind_eq_ok h
  have hfound := accepts_of_restoreItems hregistered haccepts hitems
  split at h
  · simp at h
  · obtain rfl : Value.list found = restored := by simpa using h
    refine fit?_of_coerce ?_ (accepts_list.mpr fun item hi => (hfound item hi).1)
    refine coerce_list_eq_ok_iff.mpr ⟨found.map storedPlain, found, rfl, rfl, ?_⟩
    exact List.forall₂_map_left_iff.mpr (List.forall₂_same.mpr fun item hi =>
      coerce_storedPlain (hfound item hi).1)

theorem Kind.fit?_stored_map (kinds : Kind × Kind) {entries : List (Value × Value)}
    {restored : Value}
    (hregistered : ∀ model ∈ occurrencesInEntries entries, Registered types model)
    (haccepts : ∀ entry ∈ entries,
      kinds.1.accepts entry.1 = true ∧ kinds.2.accepts entry.2 = true)
    (h : restoreValue types (.map entries) = .ok (some restored)) :
    (Kind.map kinds.1 kinds.2).fit? (stored restored) = some restored := by
  rw [restoreValue] at h
  obtain ⟨found, hentries, h⟩ := bind_eq_ok h
  have hfound := accepts_of_restoreEntries kinds hregistered haccepts hentries
  split at h
  · simp at h
  · obtain rfl : Value.map found = restored := by simpa using h
    refine fit?_of_coerce ?_ ?_
    · refine coerce_map_eq_ok_iff.mpr
        ⟨found.map fun entry => (storedPlain entry.1, storedPlain entry.2), found, rfl, rfl, ?_⟩
      refine List.forall₂_map_left_iff.mpr (List.forall₂_same.mpr fun entry he => ?_)
      obtain ⟨hkey, hvalue⟩ := hfound entry he
      exact ⟨coerce_storedPlain hkey.1, coerce_storedPlain hvalue.1⟩
    · exact accepts_map.mpr fun entry he => ⟨(hfound entry he).1.1, (hfound entry he).2.1⟩

/-- What is given back of a value fits the kind again after it was read as stored. -/
theorem Kind.fit?_stored {kind : Kind} {value restored : Value}
    (hregistered : ∀ model ∈ occurrencesInValue value, Registered types model)
    (haccepts : kind.accepts value = true)
    (h : restoreValue types value = .ok (some restored)) :
    kind.fit? (stored restored) = some restored := by
  induction value using collection_cases with
  | plain value hplain =>
      obtain ⟨hfound, hcollection⟩ := accepts_of_restoreValue hregistered hplain haccepts h
      rw [stored_of_plain hcollection]
      exact fit?_of_coerce (coerce_storedPlain hfound) hfound
  | list items =>
      cases kind with
      | list kind => exact fit?_stored_list hregistered (accepts_list.mp haccepts) h
      | _ => cases haccepts
  | map entries =>
      cases kind with
      | map k v => exact fit?_stored_map (k, v) hregistered (accepts_map.mp haccepts) h
      | _ => cases haccepts

/-! ## Reading fields one after another -/

/-- What a field gets from a record, if anything. -/
def readField (nested : Nested) (source : RecordSource) (record : Record) (field : Field) :
    Except RebuildFault (Option Value) := do
  return (← (readStored nested source record field).result).bind field.kind.fit?

theorem toOption_assign {model : Model} {field : Field} (value : Value)
    (hfield : model.descriptor.field? field.name = some field) (hwritable : field.writable = true) :
    (assign model field value).toOption = (field.kind.fit? value).map (model.put field.name) := by
  rw [← Descriptor.fit?_of_writable value hfield hwritable]
  cases hcoerce : field.kind.coerce value with
  | error fault => simp [assign, Descriptor.fit?, Kind.fit?, hfield, hcoerce, Except.toOption]
  | ok coerced =>
      rw [← Model.toOption_set hfield hcoerce]
      cases hset : model.set field.name coerced <;> simp [assign, hcoerce, hset, Except.toOption]

theorem result_readFields {fields : List Field} {model : Model} {assigned : Nat}
    (hfields : ∀ field ∈ fields, model.descriptor.field? field.name = some field ∧
      field.writable = true) :
    (readFields nested source record fields model assigned).result =
      gatherFields (readField nested source record) fields (model, assigned) := by
  induction fields generalizing model assigned with
  | nil => rfl
  | cons field rest ih =>
      obtain ⟨hfield, hwritable⟩ := hfields field (List.mem_cons_self ..)
      have hrest := fun f hf => hfields f (List.mem_cons_of_mem field hf)
      rw [readFields, gatherFields_cons, readField, Attempt.result_bind]
      cases hread : (readStored nested source record field).result with
      | error fault => rfl
      | ok found =>
          cases found with
          | none => simpa [keepField] using ih hrest
          | some value =>
              have hassign := toOption_assign value hfield hwritable
              cases hassigned : assign model field value with
              | error message =>
                  -- a value that does not fit is passed over
                  rw [hassigned] at hassign
                  have hfit : field.kind.fit? value = none := Option.map_eq_none_iff.mp hassign.symm
                  simpa [hassigned, hfit, keepField] using ih hrest
              | ok written =>
                  rw [hassigned] at hassign
                  obtain ⟨fitting, hfit, rfl⟩ := Option.map_eq_some_iff.mp hassign.symm
                  have hput : ∀ f ∈ rest,
                      (model.put field.name fitting).descriptor.field? f.name = some f ∧
                        f.writable = true := hrest
                  simpa [hassigned, hfit, keepField] using ih hput

end Remodel
