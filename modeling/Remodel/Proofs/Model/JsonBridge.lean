import Mathlib.Data.List.Forall2
import Mathlib.Data.List.Perm.Basic
import Remodel.Model.ModelJson
import Remodel.Proofs.Codec.Base64
import Remodel.Proofs.Json.Numbers
import Remodel.Proofs.Model.Equivalence
import Remodel.Proofs.Model.Spelling
import Remodel.Proofs.Model.TypedReading
import Remodel.Proofs.Table
import Remodel.Proofs.Trace

/-!
# From models to JSON and back

A model that is written as JSON and read back as its type gives an equal model (`toModel_toJson`).

## Strategy

Writing follows the value, and reading the declared kind.  They meet where the kind accepts the
value, so that the induction is on the value, for every kind that accepts it (`readsBack`):

* of a scalar, reading gives the value itself (`toValue_toJson_of_plain`);
* of a model, every declared field is found again, since the names of the fields are different,
  and none of them is written as `null` (`exists_toModel`);
* the entries of a map come back in the order of the texts of their keys.  As these are different,
  no entry is lost (`exists_map_toJson`), and equality of maps does not look at the order.
-/

namespace Remodel

namespace Value

/-- What a model, a float or a map must fulfil to be read back from JSON. -/
structure Portable (types : TypeTable) (value : Value) : Prop where
  known : value.Known types
  names : ∀ m ∈ value.model?, m.descriptor.fieldNames.Nodup
  accepted : ∀ m ∈ value.model?, ∀ field ∈ m.descriptor.fields, ∀ held ∈ m.get? field.name,
    field.kind.accepts held = true
  finite : ∀ x ∈ value.float?, x.isFinite = true
  keys : ∀ entries ∈ value.entries?, ∀ entry ∈ entries, entry.1.isKey = true
  texts : ∀ entries ∈ value.entries?, (entries.map fun entry => entry.1.display).Nodup

instance (types : TypeTable) : DecidablePred (Portable types) := fun value =>
  decidable_of_iff
    (value.Known types ∧ (∀ m ∈ value.model?, m.descriptor.fieldNames.Nodup) ∧
      (∀ m ∈ value.model?, ∀ field ∈ m.descriptor.fields, ∀ held ∈ m.get? field.name,
        field.kind.accepts held = true) ∧
      (∀ x ∈ value.float?, x.isFinite = true) ∧
      (∀ entries ∈ value.entries?, ∀ entry ∈ entries, entry.1.isKey = true) ∧
      ∀ entries ∈ value.entries?, (entries.map fun entry => entry.1.display).Nodup)
    ⟨fun ⟨h₁, h₂, h₃, h₄, h₅, h₆⟩ => ⟨h₁, h₂, h₃, h₄, h₅, h₆⟩,
      fun ⟨h₁, h₂, h₃, h₄, h₅, h₆⟩ => ⟨h₁, h₂, h₃, h₄, h₅, h₆⟩⟩

/-- Whether the floats that are keys of a map are read back from their decimal texts. -/
def Legible (value : Value) : Prop :=
  ∀ entries ∈ value.entries?, ∀ entry ∈ entries, ∀ x ∈ entry.1.float?,
    Decimal.read? (Decimal.plain.text x) = some x

instance : DecidablePred Legible := fun value =>
  inferInstanceAs (Decidable (∀ entries ∈ value.entries?, ∀ entry ∈ entries,
    ∀ x ∈ entry.1.float?, Decimal.read? (Decimal.plain.text x) = some x))

end Value

open Value Json

/-- What is read back of a value as a kind is there and equal to it. -/
def ReadsBack (types : TypeTable) (kind : Kind) (value : Value) : Prop :=
  ∃ back, value.toJson.toValue types kind = .ok back ∧
    ∀ flipped, sameValue flipped back value = true

variable {types : TypeTable}

/-! ## Scalars -/

theorem isNaN_eq_false_of_isFinite {x : Float} (hfinite : x.isFinite = true) :
    x.isNaN = false := by
  have hunpacked : ∀ y : Float.Model.UnpackedFloat, y.isFinite = true → y.isNaN = false := by
    intro y hy
    cases y with
    | notANumber => cases hy
    | _ => rfl
  exact hunpacked x.toModel.unpack hfinite

theorem isNaN_eq_false {value : Value} (hfinite : ∀ x ∈ value.float?, x.isFinite = true) :
    value.isNaN = false := by
  cases value with
  | float x => exact isNaN_eq_false_of_isFinite (hfinite x rfl)
  | _ => rfl

theorem toBytes_ofBytes (bytes : Codec.Bytes) :
    toBytes (.array (bytes.map fun byte => Json.ofNat byte.toNat)) = .ok (.bytes bytes) := by
  have hbyte : ∀ byte : UInt8, byte? (Json.ofNat byte.toNat) = some byte := by
    intro byte
    have hlt : byte.toNat < 256 := byte.toNat_lt
    simp [byte?, Json.ofNat, JsonNumber.natural?, hlt]
  have hbytes : (bytes.map fun byte => Json.ofNat byte.toNat).mapM byte? = some bytes := by
    induction bytes with
    | nil => rfl
    | cons byte rest ih => simp [hbyte, ih]
  rw [toBytes, Json.items?, Option.bind_some, hbytes]

theorem toFile_ofFile (file : FileContent) :
    toFile (Json.objectOf [("filename", .string file.name), ("content", .string file.encoded)]) =
      .ok (.file file) := by
  have hname : (Json.objectOf [("filename", .string file.name),
      ("content", .string file.encoded)]).get? "filename" = some (.string file.name) := by
    simp [Json.objectOf, Json.get?, Table.ofList, Table.lookup_insert]
  have hcontent : (Json.objectOf [("filename", .string file.name),
      ("content", .string file.encoded)]).get? "content" = some (.string file.encoded) := by
    simp [Json.objectOf, Json.get?, Table.ofList]
  simp [toFile, hname, hcontent, Json.text?, FileContent.decode?_encoded]

/-- A scalar is read back as it is. -/
theorem toValue_toJson_of_plain {kind : Kind} {value : Value} (hmodel : value.model? = none)
    (hplain : value.isCollection = false) (hfinite : ∀ x ∈ value.float?, x.isFinite = true)
    (haccepts : kind.accepts value = true) : value.toJson.toValue types kind = .ok value := by
  cases value with
  | model m => cases hmodel
  | list items => cases hplain
  | map entries => cases hplain
  | string s =>
      cases kind with
      | string => simp [Value.toJson, toValue, toScalar, scalarValue?, Kind.coerce, liftCoercion,
          haccepts]
      | _ => exact absurd haccepts Bool.false_ne_true
  | integer i =>
      cases kind with
      | integer =>
          have hint : (JsonNumber.whole i.toInt).int64? = some i := by
            simp [JsonNumber.int64?, Text.fitsInt64_toInt]
          simp [Value.toJson, Json.ofInt, toValue, toScalar, scalarValue?, hint, Kind.coerce,
            liftCoercion, haccepts]
      | _ => exact absurd haccepts Bool.false_ne_true
  | float x =>
      cases kind with
      | float => simp [Value.toJson, ofFloat_of_isFinite (hfinite x rfl), toValue, toScalar,
          scalarValue?, JsonNumber.int64?, JsonNumber.toFloat, Kind.coerce, liftCoercion, haccepts]
      | _ => exact absurd haccepts Bool.false_ne_true
  | boolean b =>
      cases kind with
      | boolean => simp [Value.toJson, toValue, toScalar, scalarValue?, Kind.coerce, liftCoercion,
          haccepts]
      | _ => exact absurd haccepts Bool.false_ne_true
  | bytes bytes =>
      cases kind with
      | bytes => simpa [Value.toJson, toValue] using toBytes_ofBytes bytes
      | _ => exact absurd haccepts Bool.false_ne_true
  | enum name =>
      cases kind with
      | enum variants =>
          have hvariant : name ∈ variants := List.contains_iff_mem.mp haccepts
          simp [Value.toJson, toValue, toScalar, scalarValue?, Kind.coerce, liftCoercion,
            Kind.variant, hvariant]
      | _ => exact absurd haccepts Bool.false_ne_true
  | file file =>
      cases kind with
      | file => simpa [Value.toJson, toValue] using toFile_ofFile file
      | _ => exact absurd haccepts Bool.false_ne_true

/-! ## Models -/

theorem lookup_valuesToJson (values : List (String × Value)) (name : String) :
    (valuesToJson values).lookup name = (values.lookup name).map Value.toJson := by
  induction values with
  | nil => rfl
  | cons entry rest ih =>
      obtain ⟨own, value⟩ := entry
      rw [valuesToJson]
      by_cases hname : name = own
      · simp [hname]
      · rw [Table.lookup_cons_of_ne _ _ hname, Table.lookup_cons_of_ne _ _ hname, ih]

/-- A model as the object of its declared and set fields. -/
theorem Model.toJson_eq (m : Model) :
    m.toJson = .object (Table.ofList (m.descriptor.fieldNames.filterMap fun name =>
      ((m.get? name).map Value.toJson).map (name, ·))) := by
  obtain ⟨descriptor, values, label⟩ := m
  rw [Model.toJson, instanceJson, Json.objectOf]
  simp only [lookup_valuesToJson]
  rfl

/-- Only floats that are not finite are written as `null`. -/
theorem toJson_ne_null {value : Value} (hfinite : ∀ x ∈ value.float?, x.isFinite = true) :
    value.toJson ≠ .null := by
  cases value with
  | float x =>
      rw [Value.toJson, ofFloat_of_isFinite (hfinite x rfl)]
      nofun
  | model m =>
      have hobject := Model.toJson_eq m
      rw [Model.toJson] at hobject
      rw [Value.toJson, hobject]
      nofun
  | _ =>
      rw [Value.toJson]
      nofun

section Fields

variable {m : Model} {members : List (String × Json)} {field : Field} {rest : List Field}

theorem readFields_cons_of_unset (start : Model) (hlookup : members.lookup field.name = none) :
    readFields types members start (field :: rest) = readFields types members start rest := by
  rw [readFields_cons, hlookup]

theorem readFields_cons_of_set (start : Model) {raw : Json} {value : Value}
    (hlookup : members.lookup field.name = some raw) (hnull : raw ≠ .null)
    (hvalue : toValue types raw field.kind = .ok value) :
    readFields types members start (field :: rest) =
      readFields types members (start.put field.name value) rest := by
  rw [readFields_cons, hlookup]
  cases raw with
  | null => exact absurd rfl hnull
  | _ => exact congrArg (· >>= _) hvalue

/-- Reading one field gives it what it had, and leaves the fields after it to be read. -/
theorem exists_readFields_cons (start : Model) {field : Field} (rest : List Field)
    (hmember : members.lookup field.name = (m.get? field.name).map Value.toJson)
    (hstart : start.get? field.name = none)
    (hreads : ∀ value, m.get? field.name = some value →
      value.toJson ≠ .null ∧ ReadsBack types field.kind value) :
    ∃ next : Model,
      readFields types members start (field :: rest) = readFields types members next rest ∧
      next.descriptor = start.descriptor ∧
      (∀ flipped, sameHeld flipped (next.get? field.name) (m.get? field.name) = true) ∧
      ∀ name, name ≠ field.name → next.get? name = start.get? name := by
  cases hvalue : m.get? field.name with
  | none =>
      rw [hvalue] at hmember
      have hskipped : readFields types members start (field :: rest) =
          readFields types members start rest := readFields_cons_of_unset start hmember
      refine ⟨start, hskipped, rfl, fun flipped => ?_, fun _ _ => rfl⟩
      rw [hstart]
      rfl
  | some value =>
      rw [hvalue] at hmember
      obtain ⟨hnull, back, hback, hsame⟩ := hreads value hvalue
      have hput : readFields types members start (field :: rest) =
          readFields types members (start.put field.name back) rest :=
        readFields_cons_of_set start hmember hnull hback
      refine ⟨start.put field.name back, hput, rfl, fun flipped => ?_, fun name hname => ?_⟩
      · rw [Instance.get?_put_self]
        exact hsame flipped
      · exact Instance.get?_put_of_ne start back hname

/-- Reading the fields of a model gives each of them what it had, and changes no other field. -/
theorem exists_readFields (start : Model) {fields : List Field}
    (hnames : (fields.map Field.name).Nodup)
    (hmembers : ∀ field ∈ fields,
      members.lookup field.name = (m.get? field.name).map Value.toJson)
    (hstart : ∀ field ∈ fields, start.get? field.name = none)
    (hreads : ∀ field ∈ fields, ∀ value, m.get? field.name = some value →
      value.toJson ≠ .null ∧ ReadsBack types field.kind value) :
    ∃ back, readFields types members start fields = .ok back ∧
      back.descriptor = start.descriptor ∧
      (∀ name, name ∉ fields.map Field.name → back.get? name = start.get? name) ∧
      ∀ field ∈ fields, ∀ flipped,
        sameHeld flipped (back.get? field.name) (m.get? field.name) = true := by
  induction fields generalizing start with
  | nil => exact ⟨start, by rw [readFields], rfl, fun _ _ => rfl, by simp⟩
  | cons field rest ih =>
      obtain ⟨hfresh, hrest⟩ := List.nodup_cons.mp hnames
      obtain ⟨next, hnext, hdescriptor, hsame, hothers⟩ := exists_readFields_cons start rest
        (hmembers field (List.mem_cons_self ..)) (hstart field (List.mem_cons_self ..))
        (hreads field (List.mem_cons_self ..))
      obtain ⟨back, hback, hkept, hunread, hread⟩ := ih next hrest
        (fun other hother => hmembers other (List.mem_cons_of_mem field hother))
        (fun other hother => by
          have hne : other.name ≠ field.name := fun heq =>
            hfresh (heq ▸ List.mem_map_of_mem hother)
          rw [hothers other.name hne, hstart other (List.mem_cons_of_mem field hother)])
        (fun other hother => hreads other (List.mem_cons_of_mem field hother))
      refine ⟨back, hnext.trans hback, hkept.trans hdescriptor, ?_, ?_⟩
      · intro name hname
        obtain ⟨hne, hname⟩ : name ≠ field.name ∧ name ∉ rest.map Field.name := by
          simpa using hname
        rw [hunread name hname, hothers name hne]
      · intro other hother flipped
        rcases List.mem_cons.mp hother with rfl | hother
        · rw [hunread _ hfresh]
          exact hsame flipped
        · exact hread other hother flipped

/-- A model is read back when what its declared fields hold is. -/
theorem exists_toModel (hknown : types.resolve m.typeId = .ok m.descriptor)
    (hnames : m.descriptor.fieldNames.Nodup)
    (hreads : ∀ field ∈ m.descriptor.fields, ∀ value, m.get? field.name = some value →
      value.toJson ≠ .null ∧ ReadsBack types field.kind value) :
    ∃ back, m.toJson.toModel types m.typeId = .ok back ∧
      ∀ flipped, sameModel flipped back m = true := by
  have hmembers : ∀ field ∈ m.descriptor.fields,
      (Table.ofList (m.descriptor.fieldNames.filterMap fun name =>
        ((m.get? name).map Value.toJson).map (name, ·))).lookup field.name =
          (m.get? field.name).map Value.toJson := by
    intro field hfield
    have hdeclared : field.name ∈ m.descriptor.fieldNames := List.mem_map_of_mem hfield
    rw [Table.lookup_ofList_filterMap fun name => (m.get? name).map Value.toJson,
      if_pos hdeclared]
  obtain ⟨back, hback, hdescriptor, -, hsame⟩ :=
    exists_readFields (Model.new m.descriptor) hnames hmembers (fun _ _ => rfl) hreads
  refine ⟨back, ?_, fun flipped => ?_⟩
  · rw [Model.toJson_eq, toModel, hknown]
    exact hback
  · have htype : back.typeId = m.typeId := congrArg Descriptor.typeId hdescriptor
    have hfields : back.descriptor.fields = m.descriptor.fields :=
      congrArg Descriptor.fields hdescriptor
    rw [sameModel_eq, hfields, ite_self, decide_eq_true htype, Bool.true_and, List.all_eq_true]
    exact fun field hfield => hsame field hfield flipped

end Fields

/-! ## Lists and maps -/

theorem exists_toValues {kind : Kind} {items : List Value}
    (h : ∀ item ∈ items, ReadsBack types kind item) :
    ∃ backs, toValues types (itemsToJson items) kind = .ok backs ∧
      ∀ flipped, sameItems flipped backs items = true := by
  induction items with
  | nil => exact ⟨[], by rw [itemsToJson, toValues], fun _ => rfl⟩
  | cons item rest ih =>
      obtain ⟨back, hback, hsame⟩ := h item (List.mem_cons_self ..)
      obtain ⟨backs, hbacks, hrest⟩ :=
        ih fun other hother => h other (List.mem_cons_of_mem item hother)
      refine ⟨back :: backs, ?_, fun flipped => ?_⟩
      · rw [itemsToJson, toValues, hback, ok_bind, hbacks]
        rfl
      · rw [sameItems, hsame, hrest, Bool.and_true]

theorem readsBack_list {item : Kind} {items : List Value}
    (h : ∀ held ∈ items, ReadsBack types item held) :
    ReadsBack types (.list item) (.list items) := by
  obtain ⟨backs, hbacks, hsame⟩ := exists_toValues h
  refine ⟨.list backs, ?_, fun flipped => ?_⟩
  · rw [Value.toJson, toValue, hbacks]
    rfl
  · rw [sameValue]
    exact hsame flipped

theorem entriesToJson_eq (entries : List (Value × Value)) :
    entriesToJson entries = entries.map fun entry => (entry.1.display, entry.2.toJson) := by
  induction entries with
  | nil => rfl
  | cons entry rest ih =>
      rw [entriesToJson, ih]
      rfl

theorem exists_map_of_perm {α β : Type} {f : α → β} {as : List α} {bs : List β}
    (h : bs.Perm (as.map f)) : ∃ arranged : List α, bs = arranged.map f ∧ arranged.Perm as := by
  have himages : List.Forall₂ (fun b a => b = f a) (as.map f) as :=
    List.forall₂_map_left_iff.mpr (List.forall₂_same.mpr fun _ _ => rfl)
  obtain ⟨arranged, hbs, hperm⟩ := List.perm_comp_forall₂ h himages
  refine ⟨arranged, ?_, hperm⟩
  clear hperm h himages
  induction hbs with
  | nil => rfl
  | cons hfirst _ ih => rw [hfirst, ih, List.map_cons]

section Maps

variable {key value : Kind} {entries : List (Value × Value)}

/-- A map is written with its entries in some order. -/
theorem exists_map_toJson (htexts : (entries.map fun entry => entry.1.display).Nodup) :
    ∃ arranged, (Value.map entries).toJson = .object (entriesToJson arranged) ∧
      arranged.Perm entries := by
  rw [Value.toJson, Json.objectOf]
  have hkeys : ((entriesToJson entries).map Prod.fst).Nodup := by
    rw [entriesToJson_eq, List.map_map]
    exact htexts
  have hperm := Table.ofList_perm hkeys
  rw [entriesToJson_eq entries] at hperm
  obtain ⟨arranged, hmembers, harranged⟩ := exists_map_of_perm hperm
  exact ⟨arranged, by rw [entriesToJson_eq entries, hmembers, entriesToJson_eq], harranged⟩

theorem exists_toEntries
    (hkeys : ∀ entry ∈ entries, key.coerce (.string entry.1.display) = .ok entry.1 ∧
      ∀ flipped, sameValue flipped entry.1 entry.1 = true)
    (hvalues : ∀ entry ∈ entries, ReadsBack types value entry.2) :
    ∃ backs, toEntries types (entriesToJson entries) key value = .ok backs ∧
      List.Forall₂ SameEntry backs entries := by
  induction entries with
  | nil => exact ⟨[], by rw [entriesToJson, toEntries], List.Forall₂.nil⟩
  | cons entry rest ih =>
      obtain ⟨own, held⟩ := entry
      obtain ⟨hkey, hself⟩ := hkeys (own, held) (List.mem_cons_self ..)
      obtain ⟨back, hback, hsame⟩ := hvalues (own, held) (List.mem_cons_self ..)
      obtain ⟨backs, hbacks, hrest⟩ := ih
        (fun other hother => hkeys other (List.mem_cons_of_mem _ hother))
        (fun other hother => hvalues other (List.mem_cons_of_mem _ hother))
      refine ⟨(own, back) :: backs, ?_, List.Forall₂.cons (fun flipped => ⟨?_, ?_⟩) hrest⟩
      · rw [entriesToJson, toEntries, hkey, liftCoercion, mapError_ok, ok_bind, hback, ok_bind,
          hbacks]
        rfl
      · exact hself flipped
      · exact hsame flipped

/-- A map is read back when its keys are read from their texts, which are different, and its values
are read back. -/
theorem readsBack_map (htexts : (entries.map fun entry => entry.1.display).Nodup)
    (hkeys : ∀ entry ∈ entries, key.coerce (.string entry.1.display) = .ok entry.1 ∧
      ∀ flipped, sameValue flipped entry.1 entry.1 = true)
    (hvalues : ∀ entry ∈ entries, ReadsBack types value entry.2) :
    ReadsBack types (.map key value) (.map entries) := by
  obtain ⟨arranged, hjson, hperm⟩ := exists_map_toJson htexts
  obtain ⟨backs, hbacks, hsame⟩ := exists_toEntries
    (fun entry hentry => hkeys entry (hperm.mem_iff.mp hentry))
    (fun entry hentry => hvalues entry (hperm.mem_iff.mp hentry))
  refine ⟨.map backs, ?_, fun flipped => sameValue_map_of_perm hsame hperm⟩
  rw [hjson, toValue, hbacks]
  rfl

end Maps

/-! ## The round trip -/

/-- A value is read back as any kind that accepts it. -/
theorem readsBack {kind : Kind} {value : Value} (hportable : value.Throughout (Portable types))
    (hlegible : value.Throughout Legible) (haccepts : kind.accepts value = true) :
    ReadsBack types kind value := by
  induction value using Value.nested_induction generalizing kind with
  | plain value hmodel hplain =>
      have hfinite := hportable.self.finite
      exact ⟨value, toValue_toJson_of_plain hmodel hplain hfinite haccepts,
        sameValue_self_of_plain hmodel hplain (isNaN_eq_false hfinite)⟩
  | model m ih =>
      cases kind with
      | model typeId =>
          have hown := hportable.self
          obtain rfl : m.typeId = typeId := of_decide_eq_true haccepts
          obtain ⟨back, hback, hsame⟩ := exists_toModel (hown.known m rfl) (hown.names m rfl)
            fun field hfield held hheld => by
              refine ⟨toJson_ne_null (hportable.field hheld).self.finite, ?_⟩
              exact ih field.name held hheld (hportable.field hheld) (hlegible.field hheld)
                (hown.accepted m rfl field hfield held hheld)
          refine ⟨.model back, ?_, fun flipped => ?_⟩
          · rw [Value.toJson, ← Model.toJson, toValue, hback]
            rfl
          · rw [sameValue]
            exact hsame flipped
      | _ => exact absurd haccepts Bool.false_ne_true
  | list items ih =>
      cases kind with
      | list item =>
          have hitems : ∀ held ∈ items, item.accepts held = true := List.all_eq_true.mp haccepts
          exact readsBack_list fun held hheld =>
            ih held hheld (hportable.item hheld) (hlegible.item hheld) (hitems held hheld)
      | _ => exact absurd haccepts Bool.false_ne_true
  | map entries ih =>
      cases kind with
      | map key value =>
          have hown := hportable.self
          have hentries : ∀ entry ∈ entries,
              key.accepts entry.1 = true ∧ value.accepts entry.2 = true := fun entry hentry =>
            Bool.and_eq_true_iff.mp (List.all_eq_true.mp haccepts entry hentry)
          refine readsBack_map (hown.texts entries rfl) (fun entry hentry => ?_)
            (fun entry hentry => ?_)
          · have hfinite := (hportable.key hentry).self.finite
            have hkey := hown.keys entries rfl entry hentry
            obtain ⟨hmodel, hplain⟩ := plain_of_isKey hkey
            exact ⟨coerce_display hkey hfinite (hlegible.self entries rfl entry hentry)
              (hentries entry hentry).1,
              sameValue_self_of_plain hmodel hplain (isNaN_eq_false hfinite)⟩
          · exact (ih entry hentry).2 (hportable.value hentry) (hlegible.value hentry)
              (hentries entry hentry).2
      | _ => exact absurd haccepts Bool.false_ne_true

/-- **From a model to JSON and back.**  A model that is written as JSON is read back, as its type,
as an equal model. -/
theorem toModel_toJson (types : TypeTable) (m : Model)
    (hportable : (Value.model m).Throughout (Portable types))
    (hlegible : (Value.model m).Throughout Legible) :
    ∃ back, m.toJson.toModel types m.typeId = .ok back ∧ (back == m) = true := by
  have hself : (Kind.model m.typeId).accepts (.model m) = true := decide_eq_true rfl
  obtain ⟨value, hvalue, hsame⟩ := readsBack hportable hlegible hself
  rw [Value.toJson, ← Model.toJson, toValue] at hvalue
  obtain ⟨back, hback, hmodel⟩ := bind_eq_ok hvalue
  obtain rfl := Except.ok.inj hmodel
  exact ⟨back, hback, hsame false⟩

/-! ## A chart with maps in lists in maps -/

namespace Chart

def axis : Descriptor := ⟨"Axis", none, [⟨"unit", .string, true⟩]⟩

def chart : Descriptor :=
  ⟨"Chart", some "title",
    [⟨"title", .string, false⟩, ⟨"width", .integer, true⟩, ⟨"scale", .float, true⟩,
      ⟨"open", .boolean, true⟩, ⟨"hash", .bytes, true⟩, ⟨"style", .enum ["bar", "line"], true⟩,
      ⟨"picture", .file, true⟩, ⟨"axes", .list (.model "Axis"), true⟩,
      ⟨"marks", .map .float (.list (.map .integer .string)), true⟩,
      ⟨"colours", .map (.enum ["bar", "line"]) .boolean, true⟩,
      ⟨"notes", .list (.list .string), true⟩, ⟨"legend", .map .boolean .string, true⟩,
      ⟨"unset", .integer, true⟩]⟩

def table : TypeTable := TypeTable.empty.insertAll [axis, chart]

def sales : Model :=
  ⟨chart,
    [("axes", .list [.model ⟨axis, [("unit", .string "€")], some 1⟩, .model ⟨axis, [], none⟩]),
      ("colours", .map [(.enum "line", .boolean true), (.enum "bar", .boolean false)]),
      ("hash", .bytes [0, 255]), ("legend", .map []),
      ("marks", .map [(.float 2.5, .list [.map [(.integer 10, .string "x"),
        (.integer (-9), .string "")], .map []]), (.float (-0.1), .list [])]),
      ("notes", .list [.list [], .list [.string "a"]]), ("open", .boolean true),
      ("picture", .file ⟨"a.png", [1, 2]⟩), ("scale", .float 1.5), ("style", .enum "bar"),
      ("title", .string "Sales"), ("width", .integer (-7))], some 0⟩

theorem toModel_toJson_sales :
    ∃ back, sales.toJson.toModel table sales.typeId = .ok back ∧ (back == sales) = true :=
  toModel_toJson table sales (by decide +kernel) (by decide +kernel)

end Chart

end Remodel
