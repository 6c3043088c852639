import Remodel.Proofs.Record.Written

/-!
# What is put into the record of a model

Flattening a model puts things under keys of its record, one after another.  Which keys these are
and what stands under them can be read off the model without flattening it (`Model.puts`): scalars,
and references to the models in its fields, in the elements of its lists and in the entries of its
maps.  A list or map inside another one puts nothing.  For a value everything is put under its own
keys (`map_fst_puts`).

So there is one recursion left, that of a model through its references
(`exec_flattenInstance_eq`).  The models it meets are the occurrences of models in the
model (`occurrences_eq`), and each of them is smaller than the model (`sizeOf_lt_of_reference`).
-/

namespace Remodel

open Record Flattening

/-- What is put under a key of a record: a scalar, or the id of the record of a model. -/
inductive Put
  | scalar (scalar : Scalar)
  | reference (model : Model)

namespace Value

/-- What is put for a value that is no list or map. -/
def plainPuts (key : String) : Value → List (String × Put)
  | model m => [(key, .reference m)]
  | file f => [(key, .scalar (.string f.encoded)), (fileNameKey key, .scalar (.string f.name))]
  | value => (Scalar.ofValue? value).toList.map fun scalar => (key, .scalar scalar)

/-- What is put for the elements of a list, from an index on. -/
def itemPuts (key : String) : Nat → List Value → List (String × Put)
  | _, [] => []
  | index, item :: rest =>
    (if item.isCollection then [] else plainPuts (itemKey key index) item) ++
      itemPuts key (index + 1) rest

/-- What is put for the entries of a map, from an index on. -/
def entryPuts (key : String) : Nat → List (Value × Value) → List (String × Put)
  | _, [] => []
  | index, (k, v) :: rest =>
    if k.isCollection || v.isCollection then entryPuts key index rest
    else plainPuts (entryKey key index) k ++ plainPuts (entryValueKey key index) v ++
      entryPuts key (index + 1) rest

/-- What is put for a value. -/
def puts (key : String) : Value → List (String × Put)
  | list items => itemPuts key 0 items
  | map entries => entryPuts key 0 entries
  | value => plainPuts key value

theorem puts_of_plain {value : Value} (h : value.isCollection = false) (key : String) :
    puts key value = plainPuts key value := by
  cases value with
  | list items => simp [isCollection] at h
  | map entries => simp [isCollection] at h
  | _ => rfl

/-! ## The keys under which something is put -/

theorem map_fst_plainPuts {value : Value} (h : value.isCollection = false) (key : String) :
    (value.plainPuts key).map Prod.fst = value.plainKeys key := by
  cases value with
  | list items => simp [isCollection] at h
  | map entries => simp [isCollection] at h
  | _ => rfl

theorem map_fst_itemPuts (key : String) (index : Nat) (items : List Value) :
    (itemPuts key index items).map Prod.fst = itemKeys key index items := by
  induction items generalizing index with
  | nil => rfl
  | cons item rest ih =>
      rw [itemPuts, itemKeys, List.map_append, ih]
      cases hitem : item.isCollection with
      | true => rfl
      | false => rw [if_neg Bool.false_ne_true, if_neg Bool.false_ne_true, map_fst_plainPuts hitem]

theorem map_fst_entryPuts (key : String) (index : Nat) (entries : List (Value × Value)) :
    (entryPuts key index entries).map Prod.fst = entryKeys key index entries := by
  induction entries generalizing index with
  | nil => rfl
  | cons entry rest ih =>
      obtain ⟨k, v⟩ := entry
      rw [entryPuts, entryKeys]
      cases hentry : k.isCollection || v.isCollection with
      | true => rw [if_pos rfl, if_pos rfl, ih]
      | false =>
          obtain ⟨hk, hv⟩ := Bool.or_eq_false_iff.mp hentry
          rw [if_neg Bool.false_ne_true, if_neg Bool.false_ne_true, List.map_append,
            List.map_append, map_fst_plainPuts hk, map_fst_plainPuts hv, ih]

/-- What is put for a value is put under the value's own keys. -/
theorem map_fst_puts (key : String) (value : Value) :
    (value.puts key).map Prod.fst = value.ownKeys key := by
  induction value using collection_cases with
  | plain value hplain =>
      rw [puts_of_plain hplain, ownKeys_of_plain hplain, map_fst_plainPuts hplain]
  | list items => exact map_fst_itemPuts key 0 items
  | map entries => exact map_fst_entryPuts key 0 entries

end Value

open Value Put

/-- What is put into the record of a model, in this order. -/
def Model.puts (model : Model) : List (String × Put) :=
  model.descriptor.fields.flatMap fun field =>
    ((model.values.lookup field.name).map (Value.puts field.name)).getD []

/-- Puts something into a record; the record of a model is written before. -/
def Put.write (context : FlattenContext) (record : Record) :
    String × Put → Flattening Record
  | (key, .scalar value) => return record.put key value
  | (key, .reference nested) => do
    let oid ← flattenInstance context nested
    return record.put key (.string oid)

/-- Puts several things into a record, one after another. -/
def Put.writeAll (context : FlattenContext) (puts : List (String × Put)) (record : Record) :
    Flattening Record :=
  puts.foldlM (Put.write context) record

section Write

variable (context : FlattenContext)

theorem exec_writeAll_cons (put : String × Put) (rest : List (String × Put)) (record : Record)
    (state : FlattenState) :
    exec (writeAll context (put :: rest) record) state =
      exec (writeAll context rest (exec (write context record put) state).1)
        (exec (write context record put) state).2 := by
  rw [writeAll, List.foldlM_cons, exec_bind]
  rfl

theorem exec_writeAll_append (puts more : List (String × Put)) (record : Record)
    (state : FlattenState) :
    exec (writeAll context (puts ++ more) record) state =
      exec (writeAll context more (exec (writeAll context puts record) state).1)
        (exec (writeAll context puts record) state).2 := by
  induction puts generalizing record state with
  | nil => rfl
  | cons put rest ih => rw [List.cons_append, exec_writeAll_cons, exec_writeAll_cons, ih]

/-! ## Flattening is putting -/

theorem exec_flattenValue_of_plain {value : Value} (h : value.isCollection = false) (key : String)
    (record : Record) (state : FlattenState) :
    exec (flattenValue context key value record) state =
      exec (writeAll context (value.plainPuts key) record) state := by
  cases value with
  | list items => simp [isCollection] at h
  | map entries => simp [isCollection] at h
  | _ => rw [flattenValue]; rfl

theorem exec_flattenItems (key : String) (index : Nat) (items : List Value) (record : Record)
    (state : FlattenState) :
    exec (flattenItems context key index items record) state =
      exec (writeAll context (itemPuts key index items) record) state := by
  induction items generalizing index record state with
  | nil => rw [flattenItems]; rfl
  | cons item rest ih =>
      rw [flattenItems, itemPuts]
      cases hitem : item.isCollection with
      | true =>
          simp only [if_true, exec_bind, exec_note]
          exact ih (index + 1) record state
      | false =>
          simp only [Bool.false_eq_true, if_false, exec_bind]
          rw [exec_writeAll_append, ← exec_flattenValue_of_plain context hitem]
          exact ih (index + 1) _ _

theorem exec_flattenEntries (key : String) (index : Nat) (entries : List (Value × Value))
    (record : Record) (state : FlattenState) :
    exec (flattenEntries context key index entries record) state =
      exec (writeAll context (entryPuts key index entries) record) state := by
  induction entries generalizing index record state with
  | nil => rw [flattenEntries]; rfl
  | cons entry rest ih =>
      obtain ⟨k, v⟩ := entry
      rw [flattenEntries, entryPuts]
      cases hentry : k.isCollection || v.isCollection with
      | true =>
          simp only [if_true, exec_bind, exec_note]
          exact ih index record state
      | false =>
          obtain ⟨hk, hv⟩ := Bool.or_eq_false_iff.mp hentry
          simp only [Bool.false_eq_true, if_false, exec_bind]
          rw [exec_writeAll_append, exec_writeAll_append,
            ← exec_flattenValue_of_plain context hk, ← exec_flattenValue_of_plain context hv]
          exact ih (index + 1) _ _

theorem exec_flattenValue (key : String) (value : Value) (record : Record)
    (state : FlattenState) :
    exec (flattenValue context key value record) state =
      exec (writeAll context (value.puts key) record) state := by
  induction value using collection_cases with
  | plain value hplain => rw [puts_of_plain hplain, exec_flattenValue_of_plain context hplain]
  | list items => rw [flattenValue, exec_flattenItems]; rfl
  | map entries => rw [flattenValue, exec_flattenEntries]; rfl

theorem exec_flattenFields (fields : List Field) (values : List (String × Value))
    (record : Record) (state : FlattenState) :
    exec (fields.foldlM (fun record field => flattenField context field.name values record)
        record) state =
      exec (writeAll context (fields.flatMap fun field =>
        ((values.lookup field.name).map (Value.puts field.name)).getD []) record) state := by
  induction fields generalizing record state with
  | nil => rfl
  | cons field rest ih =>
      rw [List.foldlM_cons, exec_bind, ih, List.flatMap_cons, exec_writeAll_append,
        flattenField_eq]
      cases values.lookup field.name with
      | none => rfl
      | some value => rw [exec_flattenValue]; rfl

/-- A model that has not been seen is begun, everything is put into its record, and the record
comes last. -/
theorem exec_flattenInstance_eq {model : Model} {state : FlattenState}
    (hunseen : model.label.bind (state.seen.lookup ·) = none) {written : Record × FlattenState}
    (hwritten : exec (writeAll context model.puts (Record.new (begun context model state).1))
      (begun context model state).2 = written) :
    exec (flattenInstance context model) state =
      ((begun context model state).1, { written.2 with
        records := written.2.records ++ [written.1.stamp context.identity model.typeId] }) := by
  obtain ⟨descriptor, values, label⟩ := model
  exact exec_flattenInstance_of_unseen context _ state rfl hunseen
    ((exec_flattenFields context descriptor.fields values _ _).trans hwritten)

end Write

/-! ## The models that are referred to -/

/-- The models that are referred to. -/
def Put.referred (puts : List (String × Put)) : List Model :=
  puts.filterMap fun put =>
    match put.2 with
    | .scalar _ => none
    | .reference nested => some nested

theorem mem_referred {puts : List (String × Put)} {model : Model} :
    model ∈ referred puts ↔ ∃ key, (key, .reference model) ∈ puts := by
  rw [referred, List.mem_filterMap]
  constructor
  · rintro ⟨⟨key, put⟩, hput, heq⟩
    cases put with
    | scalar scalar => cases heq
    | reference found =>
        cases heq
        exact ⟨key, hput⟩
  · rintro ⟨key, hput⟩
    exact ⟨(key, .reference model), hput, rfl⟩

theorem mem_referred_of_getElem? {puts : List (String × Put)} {index : Nat} {key : String}
    {model : Model} (hput : puts[index]? = some (key, .reference model)) :
    model ∈ referred puts :=
  mem_referred.mpr ⟨key, List.mem_of_getElem? hput⟩

theorem referred_append (puts more : List (String × Put)) :
    referred (puts ++ more) = referred puts ++ referred more := List.filterMap_append

/-- The occurrences in a value are those in the models that are referred to for it. -/
theorem occurrencesInValue_of_plain {value : Value} (h : value.isCollection = false)
    (key : String) :
    occurrencesInValue value = (referred (value.plainPuts key)).flatMap occurrences := by
  cases value with
  | list items => simp [isCollection] at h
  | map entries => simp [isCollection] at h
  | model m => simp [occurrencesInValue, plainPuts, referred]
  | _ => rfl

theorem occurrencesInItems_eq (key : String) (index : Nat) (items : List Value) :
    occurrencesInItems items = (referred (itemPuts key index items)).flatMap occurrences := by
  induction items generalizing index with
  | nil => rfl
  | cons item rest ih =>
      rw [occurrencesInItems, itemPuts, referred_append, List.flatMap_append, ← ih]
      cases hitem : item.isCollection with
      | true => rfl
      | false =>
          simp only [Bool.false_eq_true, if_false]
          rw [← occurrencesInValue_of_plain hitem]

theorem occurrencesInEntries_eq (key : String) (index : Nat) (entries : List (Value × Value)) :
    occurrencesInEntries entries =
      (referred (entryPuts key index entries)).flatMap occurrences := by
  induction entries generalizing index with
  | nil => rfl
  | cons entry rest ih =>
      obtain ⟨k, v⟩ := entry
      rw [occurrencesInEntries, entryPuts]
      cases hentry : k.isCollection || v.isCollection with
      | true => exact ih index
      | false =>
          obtain ⟨hk, hv⟩ := Bool.or_eq_false_iff.mp hentry
          simp only [Bool.false_eq_true, if_false, referred_append, List.flatMap_append]
          rw [← occurrencesInValue_of_plain hk, ← occurrencesInValue_of_plain hv, ← ih]

theorem occurrencesInValue_eq (key : String) (value : Value) :
    occurrencesInValue value = (referred (value.puts key)).flatMap occurrences := by
  induction value using collection_cases with
  | plain value hplain => rw [puts_of_plain hplain, occurrencesInValue_of_plain hplain]
  | list items => rw [occurrencesInValue, occurrencesInItems_eq key 0]; rfl
  | map entries => rw [occurrencesInValue, occurrencesInEntries_eq key 0]; rfl

/-- The occurrences in a model are those in the models it refers to, and the model itself. -/
theorem occurrences_eq (model : Model) :
    occurrences model = (referred model.puts).flatMap occurrences ++ [model] := by
  obtain ⟨descriptor, values, label⟩ := model
  rw [occurrences]
  congr 1
  change _ = (referred (descriptor.fields.flatMap _)).flatMap occurrences
  induction descriptor.fields with
  | nil => rfl
  | cons field rest ih =>
      rw [List.flatMap_cons, List.flatMap_cons, referred_append, List.flatMap_append, ih,
        occurrencesInField_eq]
      cases values.lookup field.name with
      | none => rfl
      | some value => rw [Option.map_some, Option.getD_some, occurrencesInValue_eq field.name]; rfl

theorem eq_of_mem_referred_plainPuts {key : String} {value : Value} {model : Model}
    (h : model ∈ referred (value.plainPuts key)) : value = .model model := by
  cases value with
  | model m => simpa [plainPuts, referred, eq_comm] using h
  | _ => simp [plainPuts, referred, Scalar.ofValue?] at h

theorem mem_of_mem_referred_itemPuts {key : String} {index : Nat} {items : List Value}
    {model : Model} (h : model ∈ referred (itemPuts key index items)) :
    Value.model model ∈ items := by
  induction items generalizing index with
  | nil => cases h
  | cons item rest ih =>
      rw [itemPuts, referred_append, List.mem_append] at h
      rcases h with h | h
      · split at h
        · cases h
        · rw [eq_of_mem_referred_plainPuts h]
          exact List.mem_cons_self
      · exact List.mem_cons_of_mem item (ih h)

theorem sizeOf_lt_of_mem_referred_entryPuts {key : String} {index : Nat}
    {entries : List (Value × Value)} {model : Model}
    (h : model ∈ referred (entryPuts key index entries)) :
    sizeOf (Value.model model) < sizeOf entries := by
  induction entries generalizing index with
  | nil => cases h
  | cons entry rest ih =>
      obtain ⟨k, v⟩ := entry
      rw [entryPuts] at h
      split at h
      · have hrest := ih h
        simp only [List.cons.sizeOf_spec]
        omega
      · simp only [referred_append, List.mem_append] at h
        simp only [List.cons.sizeOf_spec, Prod.mk.sizeOf_spec]
        rcases h with (h | h) | h
        · rw [eq_of_mem_referred_plainPuts h]
          omega
        · rw [eq_of_mem_referred_plainPuts h]
          omega
        · have hrest := ih h
          omega

/-- A model that is referred to for a value is no larger than the value. -/
theorem sizeOf_le_of_mem_referred_puts {key : String} {value : Value} {model : Model}
    (h : model ∈ referred (value.puts key)) : sizeOf (Value.model model) ≤ sizeOf value := by
  induction value using collection_cases with
  | plain value hplain =>
      rw [puts_of_plain hplain] at h
      rw [eq_of_mem_referred_plainPuts h]
  | list items =>
      have hitem := List.sizeOf_lt_of_mem (mem_of_mem_referred_itemPuts h)
      rw [Value.list.sizeOf_spec]
      omega
  | map entries =>
      have hentry := sizeOf_lt_of_mem_referred_entryPuts h
      rw [Value.map.sizeOf_spec]
      omega

/-- A model is larger than the models it refers to. -/
theorem sizeOf_lt_of_reference {model child : Model} (h : child ∈ referred model.puts) :
    sizeOf child < sizeOf model := by
  obtain ⟨key, hput⟩ := mem_referred.mp h
  obtain ⟨field, -, hput⟩ := List.mem_flatMap.mp hput
  obtain ⟨descriptor, values, label⟩ := model
  cases hlookup : values.lookup field.name with
  | none => simp [hlookup] at hput
  | some value =>
      have hchild : child ∈ referred (value.puts field.name) :=
        mem_referred.mpr ⟨key, by simpa [hlookup] using hput⟩
      have hvalue := sizeOf_le_of_mem_referred_puts hchild
      have hvalues := Table.sizeOf_lt_of_lookup hlookup
      rw [Value.model.sizeOf_spec] at hvalue
      rw [Instance.mk.sizeOf_spec descriptor values label]
      omega

end Remodel
