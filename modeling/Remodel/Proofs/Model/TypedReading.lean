import Remodel.Model.ModelJson
import Remodel.Model.Write
import Remodel.Proofs.Json.Reading
import Remodel.Proofs.Model.Coercing
import Remodel.Proofs.Model.Parts
import Remodel.Proofs.Types

/-!
# Models read from JSON are well typed

In a model that is read from JSON every set field is declared, with a kind that accepts what the
field holds, and so it is in every nested model (`wellTyped_toModel`).  Reading puts values into
fields without the check that a write makes.  That they would pass it follows from how the values of
each kind are read.

## Strategy

A value *befits* a kind when the kind accepts it and all models in it are well typed.  What is read
as a kind befits it, by induction on the JSON (`befits_of_toValue`):

* scalars and the keys of maps are coerced, and what comes of a coercion is accepted;
* files, byte strings, lists and maps are put together as their kinds ask for it;
* a model is filled field by field (`Filled`).  As names are declared once, the kind that a field
  was read as is the one that is found under its name.  As types stand under their own ids, the
  model is of the type that the kind names.
-/

namespace Remodel

/-- Whether the type of a model is the one that the table has under its id, and every set field is
declared with a kind that accepts what it holds. -/
structure Model.WellTyped (types : TypeTable) (m : Model) : Prop where
  known : types.resolve m.typeId = .ok m.descriptor
  declared : ∀ name held, m.get? name = some held →
    ∃ field, m.descriptor.field? name = some field ∧ field.kind.accepts held = true

/-- Whether what a writable field of a model holds can be written into any model of the same type,
such as a new one. -/
def Model.Rewritable (m : Model) : Prop :=
  ∀ name held, m.get? name = some held →
    ∀ field, m.descriptor.field? name = some field → field.writable = true →
      ∀ fresh : Model, fresh.descriptor = m.descriptor →
        fresh.set name held = .ok (fresh.put name held)

theorem Model.WellTyped.rewritable {types : TypeTable} {m : Model} (h : m.WellTyped types) :
    m.Rewritable := by
  intro name held hheld field hfield hwritable fresh hfresh
  obtain ⟨declared, hdeclared, haccepts⟩ := h.declared name held hheld
  obtain rfl := Option.some.inj (hdeclared.symm.trans hfield)
  have hcheck : fresh.descriptor.checkAssignment name held = .ok () := by
    rw [hfresh, Descriptor.checkAssignment_eq_ok_iff]
    exact ⟨declared, hfield, hwritable, haccepts⟩
  rw [Model.set, hcheck]

/-- Whether a value is no model, or a well typed one. -/
def Value.WellTyped (types : TypeTable) (value : Value) : Prop :=
  ∀ m ∈ value.model?, m.WellTyped types

/-- Whether a kind accepts a value, and all models in the value are well typed. -/
structure Befits (types : TypeTable) (kind : Kind) (value : Value) : Prop where
  accepted : kind.accepts value = true
  typed : value.Throughout (Value.WellTyped types)

/-- Whether a model, filled in part, has the given type, and what it holds befits the kinds that are
declared for it. -/
structure Filled (types : TypeTable) (descriptor : Descriptor) (m : Model) : Prop where
  descriptor_eq : m.descriptor = descriptor
  declared : ∀ name held, m.get? name = some held →
    ∃ field, descriptor.field? name = some field ∧ field.kind.accepts held = true
  typed : ∀ part ∈ partsOfFields m.values, part.WellTyped types

open Json

variable {types : TypeTable}

/-! ## Scalars -/

theorem wellTyped_of_plain {value : Value} (hmodel : value.model? = none) :
    value.WellTyped types := by
  intro m hm
  rw [hmodel] at hm
  cases hm

/-- A value that is accepted and in which nothing stands befits the kind. -/
theorem befits_of_plain {kind : Kind} {value : Value} (hmodel : value.model? = none)
    (hplain : value.isCollection = false) (haccepts : kind.accepts value = true) :
    Befits types kind value :=
  ⟨haccepts, .of_plain hmodel hplain (wellTyped_of_plain hmodel)⟩

theorem befits_of_coerce {kind : Kind} {value result : Value} (hmodel : value.model? = none)
    (hplain : value.isCollection = false) (h : kind.coerce value = .ok result) :
    Befits types kind result := by
  obtain ⟨hmodel, hplain⟩ := Kind.plain_of_coerce hmodel hplain h
  exact befits_of_plain hmodel hplain (Kind.accepts_of_coerce h)

theorem befits_of_toScalar {json : Json} {kind : Kind} {value : Value}
    (h : json.toScalar kind = .ok value) : Befits types kind value := by
  unfold toScalar at h
  cases hscalar : json.scalarValue? with
  | none =>
      rw [hscalar] at h
      cases h
  | some scalar =>
      rw [hscalar] at h
      have hcoerce : kind.coerce scalar = .ok value := mapError_eq_ok h
      have hplain : scalar.model? = none ∧ scalar.isCollection = false := by
        unfold scalarValue? at hscalar
        split at hscalar
        · exact Option.some.inj hscalar ▸ ⟨rfl, rfl⟩
        · exact Option.some.inj hscalar ▸ ⟨rfl, rfl⟩
        · split at hscalar <;> exact Option.some.inj hscalar ▸ ⟨rfl, rfl⟩
        · cases hscalar
      exact befits_of_coerce hplain.1 hplain.2 hcoerce

theorem befits_of_toFile {json : Json} {value : Value} (h : json.toFile = .ok value) :
    Befits types .file value := by
  simp only [toFile] at h
  split at h
  · obtain rfl := Except.ok.inj h
    exact befits_of_plain rfl rfl rfl
  · cases h

theorem befits_of_toBytes {json : Json} {value : Value} (h : json.toBytes = .ok value) :
    Befits types .bytes value := by
  unfold toBytes at h
  split at h
  · obtain rfl := Except.ok.inj h
    exact befits_of_plain rfl rfl rfl
  · cases h

/-! ## Lists and maps -/

theorem befits_of_toValues {kind : Kind} {items : List Json} {values : List Value}
    (hitems : ∀ item ∈ items, ∀ value, item.toValue types kind = .ok value →
      Befits types kind value)
    (h : toValues types items kind = .ok values) : ∀ value ∈ values, Befits types kind value := by
  induction items generalizing values with
  | nil =>
      rw [toValues] at h
      obtain rfl := Except.ok.inj h
      exact fun _ hvalue => absurd hvalue List.not_mem_nil
  | cons item rest ih =>
      rw [toValues] at h
      obtain ⟨first, hfirst, h⟩ := bind_eq_ok h
      obtain ⟨others, hothers, h⟩ := bind_eq_ok h
      obtain rfl := Except.ok.inj h
      obtain ⟨hitem, hrest⟩ := List.forall_mem_cons.mp hitems
      exact List.forall_mem_cons.mpr ⟨hitem first hfirst, ih hrest hothers⟩

theorem befits_list {item : Kind} {values : List Value}
    (h : ∀ value ∈ values, Befits types item value) : Befits types (.list item) (.list values) :=
  ⟨Kind.accepts_list_iff.mpr ⟨values, rfl, fun value hvalue => (h value hvalue).accepted⟩,
    Value.Throughout.list_iff.mpr
      ⟨wellTyped_of_plain rfl, fun value hvalue => (h value hvalue).typed⟩⟩

theorem befits_of_toEntries {key own : Kind} {members : List (String × Json)}
    {entries : List (Value × Value)}
    (hmembers : ∀ member ∈ members, ∀ value, member.2.toValue types own = .ok value →
      Befits types own value)
    (h : toEntries types members key own = .ok entries) :
    ∀ entry ∈ entries, Befits types key entry.1 ∧ Befits types own entry.2 := by
  induction members generalizing entries with
  | nil =>
      rw [toEntries] at h
      obtain rfl := Except.ok.inj h
      exact fun _ hentry => absurd hentry List.not_mem_nil
  | cons member rest ih =>
      obtain ⟨name, raw⟩ := member
      rw [toEntries] at h
      obtain ⟨k, hk, h⟩ := bind_eq_ok h
      obtain ⟨v, hv, h⟩ := bind_eq_ok h
      obtain ⟨others, hothers, h⟩ := bind_eq_ok h
      obtain rfl := Except.ok.inj h
      obtain ⟨hmember, hrest⟩ := List.forall_mem_cons.mp hmembers
      have hkey : key.coerce (.string name) = .ok k := mapError_eq_ok hk
      exact List.forall_mem_cons.mpr
        ⟨⟨befits_of_coerce rfl rfl hkey, hmember v hv⟩, ih hrest hothers⟩

theorem befits_map {key own : Kind} {entries : List (Value × Value)}
    (h : ∀ entry ∈ entries, Befits types key entry.1 ∧ Befits types own entry.2) :
    Befits types (.map key own) (.map entries) :=
  ⟨Kind.accepts_map_iff.mpr ⟨entries, rfl, fun entry hentry =>
      ⟨(h entry hentry).1.accepted, (h entry hentry).2.accepted⟩⟩,
    Value.Throughout.map_iff.mpr ⟨wellTyped_of_plain rfl, fun entry hentry =>
      ⟨(h entry hentry).1.typed, (h entry hentry).2.typed⟩⟩⟩

/-! ## Models -/

theorem filled_new (types : TypeTable) (descriptor : Descriptor) :
    Filled types descriptor (Model.new descriptor) :=
  ⟨rfl, nofun, nofun⟩

/-- Putting a value that befits its field keeps a model filled. -/
theorem Filled.put {descriptor : Descriptor} {m : Model} (h : Filled types descriptor m)
    {field : Field} {value : Value} (hfield : descriptor.field? field.name = some field)
    (hvalue : Befits types field.kind value) :
    Filled types descriptor (m.put field.name value) := by
  refine ⟨h.descriptor_eq, fun name held hheld => ?_, fun part hpart => ?_⟩
  · by_cases hname : name = field.name
    · subst hname
      rw [Instance.get?_put_self] at hheld
      obtain rfl := Option.some.inj hheld
      exact ⟨field, hfield, hvalue.accepted⟩
    · rw [Instance.get?_put_of_ne m value hname] at hheld
      exact h.declared name held hheld
  · obtain ⟨entry, hentry, hpart⟩ := Value.mem_partsOfFields.mp hpart
    rcases Table.mem_of_mem_insert hentry with rfl | hentry
    · exact hvalue.typed part hpart
    · exact h.typed part (Value.mem_partsOfFields.mpr ⟨entry, hentry, hpart⟩)

section Fields

variable {descriptor : Descriptor} {members : List (String × Json)}

theorem readFields_cons (start : Model) (field : Field) (rest : List Field) :
    readFields types members start (field :: rest) =
      match members.lookup field.name with
      | none | some .null => readFields types members start rest
      | some raw => toValue types raw field.kind >>= fun value =>
          readFields types members (start.put field.name value) rest := by
  rw [Json.readFields]
  split <;> simp only [*]

/-- A field is passed over, or it gets what is read from its member. -/
theorem readFields_cons_cases {start m : Model} {field : Field} {rest : List Field}
    (h : readFields types members start (field :: rest) = .ok m) :
    readFields types members start rest = .ok m ∨
      ∃ raw value, (field.name, raw) ∈ members ∧ raw.toValue types field.kind = .ok value ∧
        readFields types members (start.put field.name value) rest = .ok m := by
  rw [readFields_cons] at h
  split at h
  · exact Or.inl h
  · exact Or.inl h
  · rename_i raw hnull hlookup
    obtain ⟨value, hvalue, h⟩ := bind_eq_ok h
    exact Or.inr ⟨raw, value, Table.mem_of_lookup hlookup, hvalue, h⟩

theorem Filled.readFields {fields : List Field}
    (hmembers : ∀ member ∈ members, ∀ kind value, member.2.toValue types kind = .ok value →
      Befits types kind value)
    (hfields : ∀ field ∈ fields, descriptor.field? field.name = some field) {start m : Model}
    (hstart : Filled types descriptor start)
    (h : Json.readFields types members start fields = .ok m) : Filled types descriptor m := by
  induction fields generalizing start with
  | nil =>
      rw [Json.readFields] at h
      exact Except.ok.inj h ▸ hstart
  | cons field rest ih =>
      obtain ⟨hfield, hrest⟩ := List.forall_mem_cons.mp hfields
      rcases readFields_cons_cases h with h | ⟨raw, value, hraw, hvalue, h⟩
      · exact ih hrest hstart h
      · exact ih hrest (hstart.put hfield (hmembers _ hraw field.kind value hvalue)) h

/-- What is read as a model of a type is filled for the type. -/
theorem filled_of_toModel {json : Json} {typeId : String} {m : Model}
    (hmembers : ∀ members ∈ json.members?, ∀ member ∈ members, ∀ kind value,
      member.2.toValue types kind = .ok value → Befits types kind value)
    (hnames : ∀ other descriptor, types.resolve other = .ok descriptor →
      descriptor.fieldNames.Nodup)
    (h : json.toModel types typeId = .ok m) :
    types.resolve typeId = .ok m.descriptor ∧ Filled types m.descriptor m := by
  rw [toModel] at h
  obtain ⟨descriptor, hresolve, h⟩ := bind_eq_ok h
  cases json with
  | object members =>
      have hfields : ∀ field ∈ descriptor.fields, descriptor.field? field.name = some field :=
        fun field hfield => Descriptor.field?_of_mem (hnames typeId descriptor hresolve) hfield
      have hfilled := (filled_new types descriptor).readFields (hmembers members rfl) hfields h
      rw [hfilled.descriptor_eq]
      exact ⟨hresolve, hfilled⟩
  | _ => cases h

end Fields

/-- A filled model of a known type is well typed, and so is all that stands in it. -/
theorem Filled.befits {m : Model} (h : Filled types m.descriptor m) {typeId : String}
    (hresolve : types.resolve typeId = .ok m.descriptor) (hkeyed : types.Keyed) :
    Befits types (.model typeId) (.model m) := by
  have htype : m.typeId = typeId := hkeyed.typeId_eq hresolve
  refine ⟨decide_eq_true htype, Value.Throughout.model_iff.mpr ⟨fun inner hinner => ?_, h.typed⟩⟩
  obtain rfl := Option.some.inj hinner
  exact ⟨htype ▸ hresolve, h.declared⟩

/-! ## All kinds -/

/-- What is read as a kind befits it. -/
theorem befits_of_toValue (hkeyed : types.Keyed)
    (hnames : ∀ other descriptor, types.resolve other = .ok descriptor →
      descriptor.fieldNames.Nodup)
    {json : Json} {kind : Kind} {value : Value} (h : json.toValue types kind = .ok value) :
    Befits types kind value := by
  induction json using Json.nested_induction generalizing kind value with
  | step json hitems hmembers =>
      cases kind with
      | model typeId =>
          rw [toValue] at h
          obtain ⟨m, hm, h⟩ := bind_eq_ok h
          obtain rfl := Except.ok.inj h
          obtain ⟨hresolve, hfilled⟩ := filled_of_toModel
            (fun members hown member hmember _ _ => hmembers members hown member hmember) hnames hm
          exact hfilled.befits hresolve hkeyed
      | list item =>
          cases json with
          | array items =>
              rw [toValue] at h
              obtain ⟨values, hvalues, h⟩ := bind_eq_ok h
              obtain rfl := Except.ok.inj h
              exact befits_list (befits_of_toValues
                (fun held hheld _ => hitems items rfl held hheld) hvalues)
          | _ => simp [toValue] at h
      | map key own =>
          cases json with
          | object members =>
              rw [toValue] at h
              obtain ⟨entries, hentries, h⟩ := bind_eq_ok h
              obtain rfl := Except.ok.inj h
              exact befits_map (befits_of_toEntries
                (fun member hmember _ => hmembers members rfl member hmember) hentries)
          | _ => simp [toValue] at h
      | file =>
          rw [toValue] at h
          exact befits_of_toFile h
      | bytes =>
          rw [toValue] at h
          exact befits_of_toBytes h
      | _ =>
          rw [toValue] at h
          · exact befits_of_toScalar h
          -- the kind is none of those that have readers of their own
          all_goals intros; contradiction

/-- **What is read is well typed.**  A model that is read from JSON, whatever the JSON is, is of the
type that was asked for.  In it and in every nested model, the set fields are declared with kinds
that accept what they hold, and what a writable field holds can be written into a new model. -/
theorem wellTyped_toModel {types : TypeTable} (hkeyed : types.Keyed)
    (hnames : ∀ typeId descriptor, types.resolve typeId = .ok descriptor →
      descriptor.fieldNames.Nodup)
    {json : Json} {typeId : String} {m : Model} (h : json.toModel types typeId = .ok m) :
    types.resolve typeId = .ok m.descriptor ∧
      (Value.model m).Throughout fun part =>
        ∀ inner ∈ part.model?, inner.WellTyped types ∧ inner.Rewritable := by
  obtain ⟨hresolve, hfilled⟩ := filled_of_toModel
    (fun _ _ member _ _ _ => befits_of_toValue hkeyed hnames) hnames h
  refine ⟨hresolve, fun part hpart inner hinner => ?_⟩
  have htyped := (hfilled.befits hresolve hkeyed).typed part hpart inner hinner
  exact ⟨htyped, htyped.rewritable⟩

namespace Roster

def person : Descriptor :=
  ⟨"Person", some "name", [⟨"name", .string, true⟩, ⟨"role", .enum ["dev", "ops"], false⟩]⟩

def team : Descriptor :=
  ⟨"Team", none, [⟨"lead", .model "Person", true⟩, ⟨"members", .list (.model "Person"), true⟩,
    ⟨"shifts", .map .integer (.list .boolean), true⟩, ⟨"logo", .bytes, true⟩]⟩

def table : TypeTable := TypeTable.empty.insertAll [person, team]

/-- A member that is no field, one that is `null`, and scalars of other kinds. -/
def json : Json := .object
  [("lead", .object [("name", .string "Ann"), ("role", .string "dev"), ("age", .bool true)]),
    ("logo", .null),
    ("members", .array [.object [("name", .bool true)], .object []]),
    ("shifts", .object [(" 12 ", .array [.bool true, .string "false"])])]

def night : Model :=
  ⟨team, [("lead", .model ⟨person, [("name", .string "Ann"), ("role", .enum "dev")], none⟩),
    ("members",
      .list [.model ⟨person, [("name", .string "true")], none⟩, .model (Model.new person)]),
    ("shifts", .map [(.integer 12, .list [.boolean true, .boolean false])])], none⟩

theorem nodup_fieldNames (typeId : String) (descriptor : Descriptor)
    (h : table.resolve typeId = .ok descriptor) : descriptor.fieldNames.Nodup := by
  obtain ⟨entry, hentry, rfl⟩ := TypeTable.resolve_eq_ok_iff.mp h
  have hall : ∀ held ∈ table.entries, held.2.descriptor.fieldNames.Nodup := by decide +kernel
  exact hall (typeId, entry) (Table.mem_of_lookup hentry)

theorem toModel_night : json.toModel table "Team" = .ok night := by
  have hteam : table.resolve "Team" = .ok team := rfl
  have hperson : table.resolve "Person" = .ok person := rfl
  have hname : (Json.string "Ann").toScalar .string = .ok (.string "Ann") := rfl
  have hrole : (Json.string "dev").toScalar (.enum ["dev", "ops"]) = .ok (.enum "dev") := rfl
  have hword : (Json.bool true).toScalar .string = .ok (.string "true") := rfl
  have hday : (Json.bool true).toScalar .boolean = .ok (.boolean true) := rfl
  have hnight : (Json.string "false").toScalar .boolean = .ok (.boolean false) := rfl
  have hhour : liftCoercion (Kind.integer.coerce (.string " 12 ")) = .ok (.integer 12) := rfl
  simp [json, toModel, hteam, hperson, team, person, readFields_cons, readFields, List.lookup_cons,
    toValue, toValues, toEntries, hname, hrole, hword, hday, hnight, hhour]
  rfl

theorem wellTyped_toModel_night :
    json.toModel table "Team" = .ok night ∧ table.resolve "Team" = .ok team ∧
      (Value.model night).Throughout fun part =>
        ∀ inner ∈ part.model?, inner.WellTyped table ∧ inner.Rewritable :=
  ⟨toModel_night,
    wellTyped_toModel (TypeTable.keyed_empty.insertAll _) nodup_fieldNames toModel_night⟩

end Roster

end Remodel
