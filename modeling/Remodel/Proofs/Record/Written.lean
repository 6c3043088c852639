import Remodel.Proofs.Record.Writes

/-!
# What flattening writes

Flattening a value changes a record under the value's own keys only, and adds records.  That it
also makes the record carry the value is proved together for models, fields, values, elements
and entries, one case for each function.
-/

namespace Remodel

open Record Value Flattening

variable {good : List Record → String → Model → Prop} {meaning : Nat → Model}

/-! ## The fields of a model -/

theorem flattenField_eq (context : FlattenContext) (field : String)
    (values : List (String × Value)) (record : Record) :
    flattenField context field values record =
      match values.lookup field with
      | some value => flattenValue context field value record
      | none => pure record := by
  induction values with
  | nil => rfl
  | cons entry rest ih =>
      obtain ⟨name, value⟩ := entry
      rw [flattenField]
      by_cases hname : name = field
      · simp [hname]
      · rw [if_neg hname, ih, Table.lookup_cons_of_ne value rest (Ne.symm hname)]

variable (good meaning) in
/-- What writing fields one after another does to a record. -/
structure WritesFields (fields : List Field) (values : List (String × Value))
    (before after : Record × FlattenState) : Prop where
  grows : Grows good meaning before.2 after.2
  oid : after.1.oid = before.1.oid
  other : ∀ name, (∀ field ∈ fields, ∀ value, values.lookup field.name = some value →
    name ∉ value.ownKeys field.name) → after.1.get? name = before.1.get? name
  carries : ∀ name value, values.lookup name = some value →
    (∀ field ∈ fields, field.name ≠ name → ∀ sibling,
      values.lookup field.name = some sibling →
      ∀ key ∈ value.ownKeys name, key ∉ sibling.ownKeys field.name) →
    name ∈ fields.map Field.name ∨ Carries (good before.2.records) before.1 name value →
    Carries (good after.2.records) after.1 name value

section Cons

variable {field : Field} {rest : List Field} {values : List (String × Value)}
  {a b c : Record × FlattenState}

/-- Nothing is written for a field that is not set. -/
theorem WritesFields.cons_unset (h : WritesFields good meaning rest values a b)
    (hunset : values.lookup field.name = none) :
    WritesFields good meaning (field :: rest) values a b where
  grows := h.grows
  oid := h.oid
  other name hname := h.other name fun f hf => hname f (List.mem_cons_of_mem field hf)
  carries name value hset halone hdone := by
    refine h.carries name value hset (fun f hf => halone f (List.mem_cons_of_mem field hf)) ?_
    rcases hdone with hmem | hcarries
    · rw [List.map_cons, List.mem_cons] at hmem
      refine Or.inl (hmem.resolve_left ?_)
      rintro rfl
      rw [hset] at hunset
      cases hunset
    · exact Or.inr hcarries

/-- A field that is set is written before the fields that follow it. -/
theorem WritesFields.cons_set (lasting : Lasting good) {own : Value}
    (hlookup : values.lookup field.name = some own)
    (hfirst : WritesValue good meaning field.name own a b)
    (h : WritesFields good meaning rest values b c) :
    WritesFields good meaning (field :: rest) values a c where
  grows := hfirst.grows.trans lasting h.grows
  oid := h.oid.trans hfirst.oid
  other name hname :=
    (h.other name fun f hf => hname f (List.mem_cons_of_mem field hf)).trans
      (hfirst.other name (hname field (List.mem_cons_self ..) own hlookup))
  carries name value hset halone hdone := by
    refine h.carries name value hset (fun f hf => halone f (List.mem_cons_of_mem field hf)) ?_
    by_cases hname : field.name = name
    · subst hname
      obtain rfl : own = value := Option.some.inj (hlookup.symm.trans hset)
      exact Or.inr hfirst.carries
    · rcases hdone with hmem | hcarries
      · rw [List.map_cons, List.mem_cons] at hmem
        exact Or.inl (hmem.resolve_left (Ne.symm hname))
      · -- the keys of the field do not meet those of the carried value
        refine Or.inr (hcarries.transfer (fun _ _ => lasting.mono hfirst.grows.records)
          fun key hkey => hfirst.other key ?_)
        exact halone field (List.mem_cons_self ..) hname own hlookup key hkey

end Cons

theorem writesFields_flattenField (lasting : Lasting good) (context : FlattenContext)
    {bound : Nat} {fields : List Field} {values : List (String × Value)}
    (hvalue : ∀ field ∈ fields, ∀ value, values.lookup field.name = some value →
      ∀ record state, Settled good meaning bound state →
        WritesValue good meaning field.name value (record, state)
          (exec (flattenValue context field.name value record) state))
    (record : Record) (state : FlattenState) (hsettled : Settled good meaning bound state) :
    WritesFields good meaning fields values (record, state)
      (exec (fields.foldlM (fun record field => flattenField context field.name values record)
        record) state) := by
  induction fields generalizing record state with
  | nil =>
      exact ⟨Grows.refl state, rfl, fun _ _ => rfl, fun name value _ _ h =>
        h.resolve_left (by simp)⟩
  | cons field rest ih =>
      rw [List.foldlM_cons, exec_bind, flattenField_eq]
      have hrest : ∀ f ∈ rest, ∀ value, values.lookup f.name = some value →
          ∀ record state, Settled good meaning bound state →
            WritesValue good meaning f.name value (record, state)
              (exec (flattenValue context f.name value record) state) :=
        fun f hf => hvalue f (List.mem_cons_of_mem field hf)
      cases hlookup : values.lookup field.name with
      | none => exact (ih hrest record state hsettled).cons_unset hlookup
      | some own =>
          have hfirst := hvalue field (List.mem_cons_self ..) own hlookup record state hsettled
          exact WritesFields.cons_set lasting hlookup hfirst
            (ih hrest _ _ (hsettled.of_grows lasting hfirst.grows))

/-! ## A model that has not been seen -/

theorem get?_stamp_of_not_mem (record : Record) (identity : Identity) (typeId : String)
    {key : String} (hkey : key ∉ reservedKeys) :
    (record.stamp identity typeId).get? key = record.get? key := by
  simp only [reservedKeys, List.mem_cons, List.not_mem_nil, or_false, not_or] at hkey
  obtain ⟨hdomain, hconnector, hinstance, htype⟩ := hkey
  rw [stamp, get?_put_of_ne _ _ htype, get?_put_of_ne _ _ hinstance,
    get?_put_of_ne _ _ hconnector, get?_put_of_ne _ _ hdomain]

/-- The record that is made of a model's fields depicts the model. -/
theorem WritesFields.depicts {model : Model} {oid : String} {identity : Identity}
    {state : FlattenState} {after : Record × FlattenState}
    (h : WritesFields good meaning model.descriptor.fields model.values
      (Record.new oid, state) after) :
    Depicts (good after.2.records) (after.1.stamp identity model.typeId) model where
  modelType := modelType?_stamp _ _ _
  carries field hfield hseparate value hvalue := by
    have hown : ∀ key ∈ value.ownKeys field.name,
        key ∈ watchedKeys field.name (model.get? field.name) := fun key hkey => by
      rw [watchedKeys, hvalue]
      exact List.mem_append_left _ hkey
    have hcarries : Carries (good after.2.records) after.1 field.name value := by
      refine h.carries field.name value hvalue (fun f hf hne sibling hsibling key hkey hother => ?_)
        (Or.inl (List.mem_map_of_mem hfield))
      exact hseparate.alone key (hown key hkey)
        (Model.mem_siblingKeys.mpr ⟨f, hf, hne, sibling, hsibling, hother⟩)
    refine hcarries.transfer (fun _ _ hgood => hgood) fun key hkey => ?_
    exact get?_stamp_of_not_mem _ _ _
      (not_mem_reservedKeys_of_mem_watchedKeys hseparate.unreserved (hown key hkey))
  guards field hfield hseparate name hname := by
    have hwatched : name ∈ watchedKeys field.name (model.get? field.name) :=
      List.mem_append_right _ hname
    rw [get?_stamp_of_not_mem _ _ _
      (not_mem_reservedKeys_of_mem_watchedKeys hseparate.unreserved hwatched)]
    refine (h.other name fun f hf value hvalue hkey => ?_).trans rfl
    by_cases hsame : f.name = field.name
    · rw [← hsame] at hname
      rw [show model.get? f.name = some value from hvalue] at hname
      exact not_mem_ownKeys_of_mem_guardKeys hname hkey
    · exact hseparate.alone name hwatched
        (Model.mem_siblingKeys.mpr ⟨f, hf, hsame, value, hvalue, hkey⟩)

variable (good meaning) in
/-- What writing a model that has not been seen leaves behind: at the end its record, and
before it records that are good for what the record names. -/
structure WritesModel (model : Model) (state : FlattenState) (oid : String)
    (after : FlattenState) : Prop where
  grows : Grows good meaning state after
  record : ∃ records record, after.records = records ++ [record] ∧ record.oid = oid ∧
    Depicts (good records) record model

theorem lookup_noteOid_of_ne {label : Option Nat} {oid : String} {state : FlattenState}
    {other : Nat} (hne : label ≠ some other) :
    (exec (noteOid label oid) state).2.seen.lookup other = state.seen.lookup other := by
  cases label with
  | none => rfl
  | some own =>
      have hother : (other == own) = false := by
        rw [beq_eq_false_iff_ne]
        rintro rfl
        exact hne rfl
      change ((own, oid) :: state.seen).lookup other = _
      rw [List.lookup_cons, hother]

theorem lookup_noteOid_self (own : Nat) (oid : String) (state : FlattenState) :
    (exec (noteOid (some own) oid) state).2.seen.lookup own = some oid :=
  List.lookup_cons_self

/-- The id of a model that has not been seen, and the state in which its fields are written. -/
def begun (context : FlattenContext) (model : Model) (state : FlattenState) :
    String × FlattenState :=
  let drawn := exec (makeOid context model.id?) state
  (drawn.1, (exec (noteOid model.label drawn.1) drawn.2).2)

section Begun

variable (context : FlattenContext) (model : Model) (state : FlattenState)

theorem records_begun : (begun context model state).2.records = state.records := by
  rw [begun, records_noteOid, records_makeOid]

theorem lookup_begun_of_ne {other : Nat} (hne : model.label ≠ some other) :
    (begun context model state).2.seen.lookup other = state.seen.lookup other := by
  rw [begun, lookup_noteOid_of_ne hne, seen_makeOid]

theorem lookup_begun_self {own : Nat} (hlabel : model.label = some own) :
    (begun context model state).2.seen.lookup own = some (begun context model state).1 := by
  rw [begun, hlabel, lookup_noteOid_self]

/-- Noting the id of a model does not unsettle what is smaller than the model. -/
theorem Settled.begun {context : FlattenContext} {model : Model} {state : FlattenState}
    {bound : Nat} (h : Settled good meaning bound state) (hbound : bound ≤ sizeOf model)
    (hmeaning : ∀ label, model.label = some label → meaning label = model) :
    Settled good meaning bound (begun context model state).2 := by
  intro label found hseen hsize
  by_cases hsame : model.label = some label
  · -- the model itself is not smaller than the bound
    rw [hmeaning label hsame] at hsize
    omega
  · rw [lookup_begun_of_ne context model state hsame] at hseen
    rw [records_begun]
    exact h label found hseen hsize

/-- Nothing is written for a model that has been seen. -/
theorem exec_flattenInstance_of_seen {model : Model} {state : FlattenState} {oid : String}
    (hseen : model.label.bind (state.seen.lookup ·) = some oid) :
    exec (flattenInstance context model) state = (oid, state) := by
  obtain ⟨descriptor, values, label⟩ := model
  rw [flattenInstance]
  simp only [exec_bind, exec_writtenOid?, hseen]
  rfl

/-- A model that has not been seen is begun, its fields are written, and its record comes last. -/
theorem exec_flattenInstance_of_unseen {descriptor : Descriptor} {values : List (String × Value)}
    {label : Option Nat} (hmodel : model = ⟨descriptor, values, label⟩)
    (hunseen : label.bind (state.seen.lookup ·) = none) {written : Record × FlattenState}
    (hwritten : exec (descriptor.fields.foldlM
        (fun record field => flattenField context field.name values record)
        (Record.new (begun context model state).1)) (begun context model state).2 = written) :
    exec (flattenInstance context model) state =
      ((begun context model state).1, { written.2 with
        records := written.2.records ++ [written.1.stamp context.identity descriptor.typeId] }) := by
  subst hmodel hwritten
  rw [flattenInstance]
  simp only [exec_bind, exec_writtenOid?, hunseen]
  rfl

end Begun

theorem writesModel_flattenInstance (lasting : Lasting good) (context : FlattenContext)
    {descriptor : Descriptor} {values : List (String × Value)} {label : Option Nat}
    (hmeaning : ∀ l, label = some l → meaning l = ⟨descriptor, values, label⟩)
    (hvalue : ∀ field ∈ descriptor.fields, ∀ value, values.lookup field.name = some value →
      ∀ record state, Settled good meaning (sizeOf values) state →
        WritesValue good meaning field.name value (record, state)
          (exec (flattenValue context field.name value record) state))
    {state : FlattenState} (hunseen : label.bind (state.seen.lookup ·) = none)
    (hsettled : Settled good meaning (sizeOf values) state) :
    WritesModel good meaning ⟨descriptor, values, label⟩ state
      (exec (flattenInstance context ⟨descriptor, values, label⟩) state).1
      (exec (flattenInstance context ⟨descriptor, values, label⟩) state).2 := by
  set model : Model := ⟨descriptor, values, label⟩ with hmodel
  have hbound : sizeOf values ≤ sizeOf model := by
    simp [hmodel]
    omega
  have hfields := writesFields_flattenField lasting context hvalue
    (Record.new (begun context model state).1) (begun context model state).2
    (hsettled.begun hbound hmeaning)
  generalize hwritten : exec (descriptor.fields.foldlM _ _) _ = written at hfields
  have hdepicts : Depicts (good written.2.records)
      (written.1.stamp context.identity model.typeId) model := hfields.depicts
  have hoid : (written.1.stamp context.identity model.typeId).oid =
      (begun context model state).1 := hfields.oid
  have hmore : written.2.records <+: written.2.records ++ _ :=
    List.prefix_append _ [written.1.stamp context.identity model.typeId]
  rw [exec_flattenInstance_of_unseen context model state hmodel hunseen hwritten]
  refine ⟨⟨?_, fun l oid hseen => ?_⟩, written.2.records, _, rfl, hoid, hdepicts⟩
  · have hrecords := hfields.grows.records
    rw [records_begun] at hrecords
    exact hrecords.trans hmore
  · rcases hfields.grows.seen l oid hseen with hold | hgood
    · by_cases hsame : model.label = some l
      · -- the label of the model itself: its record has just been added
        rw [lookup_begun_self context model state hsame] at hold
        rw [hmeaning l hsame, ← Option.some.inj hold, ← hoid]
        exact Or.inr (lasting.depicts hdepicts)
      · rw [lookup_begun_of_ne context model state hsame] at hold
        exact Or.inl hold
    · exact Or.inr (lasting.mono hmore hgood)

/-! ## The entries of a map -/

section Entries

variable {key : String} {index : Nat} {k v : Value} {a b c : Record × FlattenState}

/-- The key and the value of an entry are written under different keys of one index. -/
theorem Writes.entry (lasting : Lasting good)
    (hkey : WritesValue good meaning (entryKey key index) k a b)
    (hk : k.isCollection = false) (hv : v.isCollection = false)
    (hvalue : WritesValue good meaning (entryValueKey key index) v b c) :
    Writes good meaning
      (k.plainKeys (entryKey key index) ++ v.plainKeys (entryValueKey key index))
      (fun good record => CarriesPlain good record (entryKey key index) k ∧
        CarriesPlain good record (entryValueKey key index) v) a c :=
  (hkey.plain hk).append lasting (hvalue.plain hv) (fun _ _ _ _ h => h.transfer)
    fun _ => not_mem_plainKeys_entryValueKey

/-- The entries that follow are written under larger indices. -/
theorem Writes.consEntry (lasting : Lasting good) {rest : List (Value × Value)}
    (hentry : Writes good meaning
      (k.plainKeys (entryKey key index) ++ v.plainKeys (entryValueKey key index))
      (fun good record => CarriesPlain good record (entryKey key index) k ∧
        CarriesPlain good record (entryValueKey key index) v) a b)
    (hrest : Writes good meaning (entryKeys key (index + 1) rest)
      (fun good record => CarriesEntries good record key (index + 1) rest) b c) :
    Writes good meaning
      (k.plainKeys (entryKey key index) ++ v.plainKeys (entryValueKey key index) ++
        entryKeys key (index + 1) rest)
      (fun good record => CarriesPlain good record (entryKey key index) k ∧
        CarriesPlain good record (entryValueKey key index) v ∧
        CarriesEntries good record key (index + 1) rest) a c := by
  have hall := hentry.append lasting hrest ?_ ?_
  · exact ⟨hall.grows, hall.oid, hall.other, hall.carries.1.1, hall.carries.1.2, hall.carries.2⟩
  · intro good better record other h hgood hsame
    exact ⟨h.1.transfer hgood fun name hname => hsame name (List.mem_append_left _ hname),
      h.2.transfer hgood fun name hname => hsame name (List.mem_append_right _ hname)⟩
  · intro name hname
    rcases List.mem_append.mp hname with hname | hname
    · exact not_mem_entryKeys_of_indexedKey (indexedKey_of_mem_entryKey hname) (by decide)
    · exact not_mem_entryKeys_of_indexedKey (indexedKey_of_mem_entryValueKey hname) (by decide)

end Entries

/-! ## Every value is carried by what is written for it -/

/-- The labels of the occurrences stand for the occurrences. -/
def Labels (meaning : Nat → Model) (models : List Model) : Prop :=
  ∀ model ∈ models, ∀ label, model.label = some label → meaning label = model

theorem Labels.subset {models fewer : List Model} (h : Labels meaning models)
    (hsubset : ∀ model ∈ fewer, model ∈ models) : Labels meaning fewer :=
  fun model hmodel => h model (hsubset model hmodel)

theorem Labels.inField {descriptor : Descriptor} {values : List (String × Value)}
    {label : Option Nat} (h : Labels meaning (occurrences ⟨descriptor, values, label⟩))
    {field : Field} (hfield : field ∈ descriptor.fields) :
    Labels meaning (occurrencesInField field.name values) := by
  refine h.subset fun nested hnested => ?_
  rw [occurrences]
  exact List.mem_append_left _ (List.mem_flatMap.mpr ⟨field, hfield, hnested⟩)

mutual

theorem writes_flattenInstance (lasting : Lasting good) (context : FlattenContext) :
    ∀ (model : Instance Value) (state : FlattenState), Labels meaning (occurrences model) →
      Settled good meaning (sizeOf model + 1) state →
      Grows good meaning state (exec (flattenInstance context model) state).2 ∧
        good (exec (flattenInstance context model) state).2.records
          (exec (flattenInstance context model) state).1 model
  | ⟨descriptor, values, label⟩, state, hlabels, hsettled => by
    have hself : ∀ l, label = some l → meaning l = ⟨descriptor, values, label⟩ :=
      hlabels _ (self_mem_occurrences _)
    cases hseen : label.bind (state.seen.lookup ·) with
    | some oid =>
        -- the model has been met before, and is small enough to have been written by now
        obtain ⟨own, hlabel, hlookup⟩ := Option.bind_eq_some_iff.mp hseen
        rw [exec_flattenInstance_of_seen context hseen]
        refine ⟨Grows.refl state, ?_⟩
        have hgood := hsettled own oid hlookup (by rw [hself own hlabel]; omega)
        rwa [hself own hlabel] at hgood
    | none =>
        have hvalue : ∀ field ∈ descriptor.fields, ∀ value,
            values.lookup field.name = some value → ∀ record state,
              Settled good meaning (sizeOf values) state →
              WritesValue good meaning field.name value (record, state)
                (exec (flattenValue context field.name value record) state) := by
          intro field hfield
          exact writes_flattenField lasting context field.name values (hlabels.inField hfield)
        have hwritten := writesModel_flattenInstance lasting context hself hvalue hseen
          (hsettled.anti (by simp; omega))
        obtain ⟨records, record, hrecords, hoid, hdepicts⟩ := hwritten.record
        refine ⟨hwritten.grows, ?_⟩
        rw [hrecords, ← hoid]
        exact lasting.depicts hdepicts
termination_by structural model => model

theorem writes_flattenField (lasting : Lasting good) (context : FlattenContext) (field : String) :
    ∀ (values : List (String × Value)), Labels meaning (occurrencesInField field values) →
      ∀ value, values.lookup field = some value → ∀ record state,
        Settled good meaning (sizeOf values) state →
        WritesValue good meaning field value (record, state)
          (exec (flattenValue context field value record) state)
  | [], _, _, hlookup, _, _, _ => by simp at hlookup
  | (name, own) :: rest, hlabels, value, hlookup, record, state, hsettled => by
    rw [occurrencesInField] at hlabels
    by_cases hname : name = field
    · subst hname
      obtain rfl : own = value := by simpa using hlookup
      rw [if_pos rfl] at hlabels
      exact writes_flattenValue lasting context name own record state hlabels
        (hsettled.anti (by simp; omega))
    · rw [if_neg hname] at hlabels
      rw [Table.lookup_cons_of_ne own rest (Ne.symm hname)] at hlookup
      exact writes_flattenField lasting context field rest hlabels value hlookup record state
        (hsettled.anti (by simp))
termination_by structural values => values

theorem writes_flattenValue (lasting : Lasting good) (context : FlattenContext) (key : String) :
    ∀ (value : Value) (record : Record) (state : FlattenState),
      Labels meaning (occurrencesInValue value) → Settled good meaning (sizeOf value) state →
      WritesValue good meaning key value (record, state)
        (exec (flattenValue context key value record) state)
  | .model m, record, state, hlabels, hsettled => by
    have hsize : sizeOf m + 1 ≤ sizeOf (Value.model m) := by
      rw [Value.model.sizeOf_spec, Nat.add_comm]
    obtain ⟨hgrows, hgood⟩ :=
      writes_flattenInstance lasting context m state hlabels (hsettled.anti hsize)
    rw [flattenValue]
    exact Writes.of_model record hgrows hgood
  | .file f, record, state, _, _ => by
    rw [flattenValue]
    exact Writes.of_file f record state
  | .list items, record, state, hlabels, hsettled => by
    rw [flattenValue]
    exact writes_flattenItems lasting context key 0 items record state hlabels
      (hsettled.anti (by simp))
  | .map entries, record, state, hlabels, hsettled => by
    rw [flattenValue]
    exact writes_flattenEntries lasting context key 0 entries record state hlabels
      (hsettled.anti (by simp))
  | .string s, record, state, _, _ => by
    rw [flattenValue]
    exact Writes.of_scalar record state rfl rfl (get?_put_self _ _ _)
  | .integer i, record, state, _, _ => by
    rw [flattenValue]
    exact Writes.of_scalar record state rfl rfl (get?_put_self _ _ _)
  | .float x, record, state, _, _ => by
    rw [flattenValue]
    exact Writes.of_scalar record state rfl rfl (get?_put_self _ _ _)
  | .boolean b, record, state, _, _ => by
    rw [flattenValue]
    exact Writes.of_scalar record state rfl rfl (get?_put_self _ _ _)
  | .bytes b, record, state, _, _ => by
    rw [flattenValue]
    exact Writes.of_scalar record state rfl rfl (get?_put_self _ _ _)
  | .enum name, record, state, _, _ => by
    rw [flattenValue]
    exact Writes.of_scalar record state rfl rfl (get?_put_self _ _ _)
termination_by structural value => value

theorem writes_flattenItems (lasting : Lasting good) (context : FlattenContext) (key : String)
    (index : Nat) : ∀ (items : List Value) (record : Record) (state : FlattenState),
      Labels meaning (occurrencesInItems items) → Settled good meaning (sizeOf items) state →
      Writes good meaning (itemKeys key index items)
        (fun good record => CarriesItems good record key index items) (record, state)
        (exec (flattenItems context key index items record) state)
  | [], record, state, _, _ => by
    rw [flattenItems]
    exact ⟨Grows.refl state, rfl, fun _ _ => rfl, trivial⟩
  | item :: rest, record, state, hlabels, hsettled => by
    rw [occurrencesInItems] at hlabels
    have hsettledRest : Settled good meaning (sizeOf rest) state := hsettled.anti (by simp)
    have hlabelsRest : Labels meaning (occurrencesInItems rest) :=
      hlabels.subset fun _ => List.mem_append_right _
    rw [flattenItems, itemKeys]
    cases hitem : item.isCollection with
    | true =>
        -- nothing is written for a list or map among the elements, but it keeps its index
        simp only [if_true, exec_bind, exec_note]
        have hrest := writes_flattenItems lasting context key (index + 1) rest record state
          hlabelsRest hsettledRest
        exact ⟨hrest.grows, hrest.oid, hrest.other, by simp [hitem], hrest.carries⟩
    | false =>
        simp only [Bool.false_eq_true, if_false, exec_bind]
        rw [hitem] at hlabels
        have hfirst := writes_flattenValue lasting context (itemKey key index) item record state
          (hlabels.subset fun _ => List.mem_append_left _) (hsettled.anti (by simp; omega))
        set first := exec (flattenValue context (itemKey key index) item record) state
        have hrest := writes_flattenItems lasting context key (index + 1) rest first.1 first.2
          hlabelsRest (hsettledRest.of_grows lasting hfirst.grows)
        have hboth := (hfirst.plain hitem).append lasting hrest
          (fun _ _ _ _ h => h.transfer) fun _ => not_mem_itemKeys_of_mem
        exact ⟨hboth.grows, hboth.oid, hboth.other, fun _ => hboth.carries.1, hboth.carries.2⟩
termination_by structural items => items

theorem writes_flattenEntries (lasting : Lasting good) (context : FlattenContext) (key : String)
    (index : Nat) : ∀ (entries : List (Value × Value)) (record : Record) (state : FlattenState),
      Labels meaning (occurrencesInEntries entries) →
      Settled good meaning (sizeOf entries) state →
      Writes good meaning (entryKeys key index entries)
        (fun good record => CarriesEntries good record key index entries) (record, state)
        (exec (flattenEntries context key index entries record) state)
  | [], record, state, _, _ => by
    rw [flattenEntries]
    exact ⟨Grows.refl state, rfl, fun _ _ => rfl, trivial⟩
  | (k, v) :: rest, record, state, hlabels, hsettled => by
    rw [occurrencesInEntries] at hlabels
    have hsettledRest : Settled good meaning (sizeOf rest) state := hsettled.anti (by simp)
    have hlabelsRest : Labels meaning (occurrencesInEntries rest) :=
      hlabels.subset fun _ => List.mem_append_right _
    rw [flattenEntries, entryKeys]
    cases hentry : k.isCollection || v.isCollection with
    | true =>
        -- an entry that is skipped takes no index, and the next one is written in its place
        simp only [if_true, exec_bind, exec_note]
        have hrest := writes_flattenEntries lasting context key index rest record state
          hlabelsRest hsettledRest
        refine ⟨hrest.grows, hrest.oid, hrest.other, ?_⟩
        rw [CarriesEntries, if_pos hentry]
        exact hrest.carries
    | false =>
        obtain ⟨hk, hv⟩ := Bool.or_eq_false_iff.mp hentry
        simp only [Bool.false_eq_true, if_false, exec_bind]
        rw [hentry] at hlabels
        have hkey := writes_flattenValue lasting context (entryKey key index) k record state
          (hlabels.subset fun _ h => List.mem_append_left _ (List.mem_append_left _ h))
          (hsettled.anti (by simp; omega))
        set first := exec (flattenValue context (entryKey key index) k record) state
        have hvalue := writes_flattenValue lasting context (entryValueKey key index) v
          first.1 first.2
          (hlabels.subset fun _ h => List.mem_append_left _ (List.mem_append_right _ h))
          ((hsettled.anti (by simp; omega)).of_grows lasting hkey.grows)
        have hentryWrites := hkey.entry lasting hk hv hvalue
        set second := exec (flattenValue context (entryValueKey key index) v first.1) first.2
        have hrest := writes_flattenEntries lasting context key (index + 1) rest
          second.1 second.2 hlabelsRest (hsettledRest.of_grows lasting hentryWrites.grows)
        have hall := hentryWrites.consEntry lasting hrest
        refine ⟨hall.grows, hall.oid, hall.other, ?_⟩
        rw [CarriesEntries, hentry]
        exact hall.carries
termination_by structural entries => entries

end

/-- The last record of a flattened model is its own, and depicts it. -/
theorem depicts_flatten (lasting : Lasting good)
    (context : FlattenContext) {model : Model} (hcoherent : model.Coherent) :
    ∃ records record, (model.flatten context).value.records = records ++ [record] ∧
      record.oid = (model.flatten context).value.rootOid ∧
      Depicts (good records) record model := by
  have hlabels : Labels (instanceOf model) (occurrences model) :=
    fun nested hnested label hlabel => hcoherent.instanceOf_eq hnested hlabel
  obtain ⟨descriptor, values, label⟩ := model
  have hunseen : label.bind (([] : List (Nat × String)).lookup ·) = none := by
    cases label <;> rfl
  have hsettled : Settled good (instanceOf ⟨descriptor, values, label⟩) (sizeOf values)
      ⟨[], [], 0⟩ := by
    intro l oid hseen
    simp at hseen
  exact (writesModel_flattenInstance lasting context (hlabels _ (self_mem_occurrences _))
    (fun field hfield => writes_flattenField lasting context field.name values
      (hlabels.inField hfield)) hunseen hsettled).record

end Remodel