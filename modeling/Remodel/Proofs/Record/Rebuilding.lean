import Remodel.Proofs.Record.FieldReading
import Remodel.Proofs.Record.Written
import Remodel.Proofs.Types

/-!
# Rebuilding what was flattened

Flattening a model leaves a record that gives it back (`rebuiltAs_of_restoreModel`): whatever further
records there are, as long as no id is given twice, and however deep records are followed
beyond what the records need that were there when the model was written.

The record of a model names records that stand before it.  So a model is given back by
induction on the records, which `Lasting` packs: a record that depicts a model over records
that give back the nested models gives back the model.
-/

namespace Remodel

open Record Value Rebuild

variable {types : TypeTable} {nested : Nested} {source : RecordSource} {record : Record}
  {good : String → Model → Prop}

/-! ## One record -/

theorem RecordSource.fetch_of_mem {source : RecordSource} {record : Record}
    (hoids : (source.map Record.oid).Nodup) (h : record ∈ source) :
    source.fetch record.oid = .ok record := by
  have hreverse : (source.reverse.map Record.oid).Nodup := by
    rwa [List.map_reverse, List.nodup_reverse]
  rw [fetch, find?_eq_some_of_nodup hreverse (List.mem_reverse.mpr h)]

/-- A record of the right type is rebuilt by gathering what its fields get. -/
theorem result_rebuildUsing {typeId : String} (htype : record.modelType? = some typeId)
    (hnames : ∀ descriptor, types.resolve typeId = .ok descriptor →
      descriptor.fieldNames.Nodup) :
    (rebuildUsing nested types source typeId record).result =
      gatherModel types typeId (readField nested source record) := by
  unfold rebuildUsing gatherModel
  rw [Attempt.result_bind, result_lift]
  cases hresolve : types.resolve typeId with
  | error fault => rfl
  | ok descriptor =>
      cases hblank : types.blank descriptor with
      | error fault => simp [htype, hblank]
      | ok blank =>
          have hfields : ∀ field ∈ descriptor.writableFields,
              blank.descriptor.field? field.name = some field ∧ field.writable = true := by
            intro field hfield
            obtain ⟨hdeclared, hwritable⟩ := List.mem_filter.mp hfield
            rw [blank_eq_new hblank]
            exact ⟨Descriptor.field?_of_mem (hnames descriptor hresolve) hdeclared, hwritable⟩
          have hread : (readFields nested source record descriptor.writableFields blank 0).result =
              gatherFields (readField nested source record) descriptor.writableFields (blank, 0) :=
            result_readFields hfields
          simp [htype, hblank, hread]

/-- A separate field gets what is given back of its value from a record that depicts the model. -/
theorem readField_eq_restoreField {model : Model} {field : Field}
    (hdepicts : Depicts (Fetches types nested source) record model)
    (hfield : field ∈ model.descriptor.fields) (hseparate : model.Separate field.name)
    (hsound : ∀ value, model.get? field.name = some value →
      ∀ inner ∈ occurrencesInValue value, Sound types inner)
    (haccepted : ∀ value, model.get? field.name = some value →
      field.kind.accepts value = true) :
    readField nested source record field = restoreField types field.name model.values := by
  have hguards := hdepicts.guards field hfield hseparate
  cases hvalue : model.get? field.name with
  | none =>
      rw [hvalue] at hguards
      rw [restoreField_of_unset hvalue, readField, result_readStored_of_absent hguards]
      rfl
  | some value =>
      rw [hvalue] at hguards
      have hread := result_readStored (haccepted value hvalue) (hsound value hvalue)
        (hdepicts.carries field hfield hseparate value hvalue) hguards
      rw [restoreField_of_get? hvalue, readField, hread]
      cases hrestored : restoreValue types value with
      | error fault => rfl
      | ok restored =>
          cases restored with
          | none => rfl
          | some found =>
              have hfit := Kind.fit?_stored
                (fun inner h => (hsound value hvalue inner h).registered)
                (haccepted value hvalue) hrestored
              simp [hfit]

/-! ## All records -/

/-- There is a record with the id that gives back the model, from any source with unique ids
that the records are the beginning of, and to any depth that is enough for so many records. -/
def Restorable (types : TypeTable) (records : List Record) (oid : String) (model : Model) :
    Prop :=
  (∀ inner ∈ occurrences model, Sound types inner) →
    ∃ record ∈ records, record.oid = oid ∧
      ∀ (source : RecordSource) (depth : Nat), records <+: source →
        (source.map Record.oid).Nodup → records.length ≤ depth →
        (rebuildWithin types source depth model.typeId record).result = restoreModel types model

theorem Restorable.mono {records more : List Record} {oid : String} {model : Model}
    (hbegins : records <+: more) (h : Restorable types records oid model) :
    Restorable types more oid model := by
  intro hsound
  obtain ⟨record, hrecord, hoid, hrebuild⟩ := h hsound
  exact ⟨record, hbegins.subset hrecord, hoid, fun source depth hsource hoids hdepth =>
    hrebuild source depth (hbegins.trans hsource) hoids (hbegins.length_le.trans hdepth)⟩

/-- A restorable model is fetched from a source by following records to the same depth. -/
theorem Restorable.fetches {records : List Record} {source : RecordSource} {depth : Nat}
    (hsource : records <+: source) (hoids : (source.map Record.oid).Nodup)
    (hdepth : records.length ≤ depth) {oid : String} {model : Model}
    (h : Restorable types records oid model) :
    Fetches types (rebuildWithin types source depth) source oid model := by
  intro hsound
  obtain ⟨record, hrecord, rfl, hrebuild⟩ := h hsound
  exact ⟨record, RecordSource.fetch_of_mem hoids (hsource.subset hrecord),
    hrebuild source depth hsource hoids hdepth⟩

/-- The models that a record names are fetched once there is a source and a depth for them. -/
theorem Depicts.fetches {records : List Record} {source : RecordSource} {depth : Nat}
    {record : Record} {model : Model} (h : Depicts (Restorable types records) record model)
    (hsource : records <+: source) (hoids : (source.map Record.oid).Nodup)
    (hdepth : records.length ≤ depth) :
    Depicts (Fetches types (rebuildWithin types source depth) source) record model :=
  h.transfer fun _ _ hrestorable => hrestorable.fetches hsource hoids hdepth

/-- A record that depicts a model gives it back one step deeper than what the record names. -/
theorem lasting_restorable (types : TypeTable) : Lasting (Restorable types) where
  mono := Restorable.mono
  depicts {records record model} hdepicts hsound := by
    refine ⟨record, by simp, rfl, fun source depth hsource hoids hdepth => ?_⟩
    obtain ⟨depth, rfl⟩ : ∃ d, depth = d + 1 := ⟨depth - 1, by simp at hdepth; omega⟩
    have hbefore : records <+: source := (List.prefix_append records [record]).trans hsource
    have hlength : records.length ≤ depth := by
      simp at hdepth
      omega
    have hfetches := hdepicts.fetches hbefore hoids hlength
    obtain ⟨hregistered, hnames, hseparate, haccepted⟩ := hsound model (self_mem_occurrences model)
    rw [rebuildWithin, restoreModel_eq, result_rebuildUsing hfetches.modelType]
    · -- both gather the fields of the registered type, which is the model's own
      refine gatherModel_congr fun descriptor hresolve field hfield => ?_
      obtain rfl := hregistered descriptor hresolve
      have hdeclared := (List.mem_filter.mp hfield).1
      exact readField_eq_restoreField hfetches hdeclared (hseparate field hdeclared)
        (fun value hvalue inner hinner =>
          hsound inner (mem_occurrences_of_get? hdeclared hvalue hinner))
        (haccepted field hdeclared)
    · intro descriptor hresolve
      rwa [hregistered descriptor hresolve]

/-! ## Flattening and rebuilding -/

theorem rebuildDepth_ge {descriptor : Descriptor} {typeId : String}
    (h : types.resolve typeId = .ok descriptor) (source : RecordSource) :
    source.length ≤ rebuildDepth types source := by
  have hpos : 0 < types.size := by
    refine List.length_pos_iff.mpr fun hnil => ?_
    simp [TypeTable.resolve, hnil] at h
  have := Nat.le_mul_of_pos_left source.length hpos
  unfold rebuildDepth
  omega

theorem root?_eq_some {flat : FlatModel} {record : Record}
    (hoids : (flat.records.map Record.oid).Nodup) (hrecord : record ∈ flat.records)
    (hroot : record.oid = flat.rootOid) : flat.root? = some record := by
  rw [FlatModel.root?, ← hroot]
  exact find?_eq_some_of_nodup hoids hrecord

/-- The model is rebuilt as another one from its own root record and its own records. -/
def RebuiltAs (types : TypeTable) (context : FlattenContext) (model rebuilt : Model) : Prop :=
  ∃ root, (model.flatten context).value.root? = some root ∧
    (rebuild types (model.flatten context).value.records model.typeId root).result =
      .ok (some rebuilt)

/-- **Flattening and rebuilding.**  What is rebuilt from the root of a flattened model is what
is given back of the model, if the records have different ids. -/
theorem rebuiltAs_of_restoreModel {context : FlattenContext} {model rebuilt : Model}
    (hcoherent : model.Coherent) (hsound : ∀ inner ∈ occurrences model, Sound types inner)
    (htype : types.resolve model.typeId = .ok model.descriptor)
    (hoids : ((model.flatten context).value.records.map Record.oid).Nodup)
    (hrestore : restoreModel types model = .ok (some rebuilt)) :
    RebuiltAs types context model rebuilt := by
  obtain ⟨records, record, hrecords, hroot, hdepicts⟩ :=
    depicts_flatten (lasting_restorable types) context hcoherent
  have hgood := (lasting_restorable types).depicts hdepicts
  rw [← hrecords, hroot] at hgood
  obtain ⟨root, hmem, hoid, hrebuild⟩ := hgood hsound
  rw [hrestore] at hrebuild
  exact ⟨root, root?_eq_some hoids hmem hoid,
    hrebuild _ _ List.prefix_rfl hoids (rebuildDepth_ge htype _)⟩

end Remodel
