import Mathlib.Data.List.Basic
import Remodel.Proofs.Model.Relabelling
import Remodel.Proofs.Record.Instances

/-!
# Records of models with ids of their own

If a model and all that it refers to have ids of their own, its record is determined by the model
(`Model.ownRecord`): no id has to be drawn, and it does not matter which instances are the same.

* What is put into the record of a relabelled model are the same scalars, and the relabelled models
  (`puts_relabelModel`); so the occurrences in it are the relabelled occurrences
  (`occurrences_relabel`).
* The id of a model is a text that does not show labels (`id?_relabelModel`), and therefore neither
  does the record (`ownRecord_relabel`).
-/

namespace Remodel

open Record Put

/-- A model without its labels: what is left when it is not told which instances are the same.
Models with one shape are structurally identical. -/
def Model.shape (model : Model) : Model := relabelModel (fun _ => none) model

/-! ## What is put, labels aside -/

section Relabel

variable (labels : Option Nat → Option Nat)

/-- What is put for a relabelled value. -/
def Put.relabelled : Put → Put
  | .scalar value => .scalar value
  | .reference nested => .reference (relabelModel labels nested)

theorem plainPuts_relabel (key : String) (value : Value) :
    (relabel labels value).plainPuts key =
      (value.plainPuts key).map (Prod.map id (Put.relabelled labels)) := by
  cases value <;> rfl

theorem itemPuts_relabel (key : String) (index : Nat) (items : List Value) :
    Value.itemPuts key index (relabelItems labels items) =
      (Value.itemPuts key index items).map (Prod.map id (Put.relabelled labels)) := by
  induction items generalizing index with
  | nil => rfl
  | cons item rest ih =>
      rw [relabelItems, Value.itemPuts, Value.itemPuts, isCollection_relabel, ih, List.map_append]
      cases item.isCollection with
      | true => rfl
      | false => simp only [Bool.false_eq_true, if_false, plainPuts_relabel]

theorem entryPuts_relabel (key : String) (index : Nat) (entries : List (Value × Value)) :
    Value.entryPuts key index (relabelEntries labels entries) =
      (Value.entryPuts key index entries).map (Prod.map id (Put.relabelled labels)) := by
  induction entries generalizing index with
  | nil => rfl
  | cons entry rest ih =>
      obtain ⟨k, v⟩ := entry
      rw [relabelEntries, Value.entryPuts, Value.entryPuts, isCollection_relabel,
        isCollection_relabel]
      cases k.isCollection || v.isCollection with
      | true => exact ih index
      | false =>
          simp only [Bool.false_eq_true, if_false, plainPuts_relabel, ih, List.map_append]

theorem puts_relabel (key : String) (value : Value) :
    (relabel labels value).puts key =
      (value.puts key).map (Prod.map id (Put.relabelled labels)) := by
  cases value with
  | list items => exact itemPuts_relabel labels key 0 items
  | map entries => exact entryPuts_relabel labels key 0 entries
  | _ => rfl

theorem lookup_relabelValues (name : String) (values : List (String × Value)) :
    (relabelValues labels values).lookup name = (values.lookup name).map (relabel labels) := by
  induction values with
  | nil => rfl
  | cons entry rest ih =>
      obtain ⟨other, value⟩ := entry
      rw [relabelValues]
      by_cases hname : name = other
      · simp [hname]
      · rw [Table.lookup_cons_of_ne _ _ hname, Table.lookup_cons_of_ne _ _ hname, ih]

/-- What is put into the record of a relabelled model. -/
theorem puts_relabelModel (model : Model) :
    Model.puts (relabelModel labels model) =
      model.puts.map (Prod.map id (Put.relabelled labels)) := by
  obtain ⟨descriptor, values, label⟩ := model
  rw [relabelModel, Model.puts, Model.puts, List.map_flatMap]
  refine List.flatMap_congr fun field _ => ?_
  dsimp only
  rw [lookup_relabelValues]
  cases values.lookup field.name with
  | none => rfl
  | some value => exact puts_relabel labels field.name value

theorem referred_relabelled (puts : List (String × Put)) :
    referred (puts.map (Prod.map id (Put.relabelled labels))) =
      (referred puts).map (relabelModel labels) := by
  induction puts with
  | nil => rfl
  | cons put rest ih =>
      obtain ⟨key, put⟩ := put
      cases put with
      | scalar scalar => exact ih
      | reference nested => exact congrArg (relabelModel labels nested :: ·) ih

/-- The occurrences in a relabelled model are the relabelled occurrences. -/
theorem occurrences_relabel (model : Model) :
    occurrences (relabelModel labels model) =
      (occurrences model).map (relabelModel labels) := by
  rw [occurrences_eq, occurrences_eq model, puts_relabelModel, referred_relabelled,
    List.map_append, List.flatMap_map, List.map_flatMap]
  congr 1
  refine List.flatMap_congr fun nested hnested => ?_
  have hsmaller := sizeOf_lt_of_reference hnested
  exact occurrences_relabel nested
termination_by sizeOf model

/-- The id of a model does not show labels. -/
theorem id?_relabelModel (model : Model) : (relabelModel labels model).id? = model.id? := by
  obtain ⟨descriptor, values, label⟩ := model
  rw [relabelModel, Instance.id?, Instance.id?]
  dsimp only
  cases descriptor.idField with
  | none => rfl
  | some field =>
      simp only [Option.bind_some, Instance.get?, lookup_relabelValues, Option.map_map]
      cases values.lookup field with
      | none => rfl
      | some value => exact congrArg some (display_relabel labels value)

end Relabel

/-! ## The record of a model with an id of its own -/

/-- The record id of a model with an id of its own. -/
def Model.ownOid (identity : Identity) (model : Model) : String :=
  identity.oid (model.id?.getD "")

/-- What stands under the key of something that is put, if all models have ids of their own. -/
def Put.own (identity : Identity) : Put → Scalar
  | .scalar value => value
  | .reference nested => .string (nested.ownOid identity)

/-- Puts several things into a record, if all models have ids of their own. -/
def Put.ownAll (identity : Identity) (puts : List (String × Put)) (record : Record) : Record :=
  puts.foldl (fun record put => record.put put.1 (put.2.own identity)) record

/-- The record of a model, if it and all that it refers to have ids of their own. -/
def Model.ownRecord (identity : Identity) (model : Model) : Record :=
  (ownAll identity model.puts (Record.new (model.ownOid identity))).stamp identity model.typeId

section OwnRecord

variable (identity : Identity) (labels : Option Nat → Option Nat)

theorem oid_ownAll (puts : List (String × Put)) (record : Record) :
    (ownAll identity puts record).oid = record.oid := by
  induction puts generalizing record with
  | nil => rfl
  | cons put rest ih => exact ih (record.put put.1 (put.2.own identity))

theorem oid_ownRecord (model : Model) :
    (model.ownRecord identity).oid = model.ownOid identity :=
  oid_ownAll identity model.puts _

theorem ownOid_relabel (model : Model) :
    Model.ownOid identity (relabelModel labels model) = model.ownOid identity := by
  rw [Model.ownOid, id?_relabelModel, Model.ownOid]

theorem ownAll_relabelled (puts : List (String × Put)) (record : Record) :
    ownAll identity (puts.map (Prod.map id (Put.relabelled labels))) record =
      ownAll identity puts record := by
  induction puts generalizing record with
  | nil => rfl
  | cons put rest ih =>
      obtain ⟨key, put⟩ := put
      have hput : (put.relabelled labels).own identity = put.own identity := by
        cases put with
        | scalar value => rfl
        | reference nested => exact congrArg Scalar.string (ownOid_relabel identity labels nested)
      change ownAll identity _ (record.put key ((put.relabelled labels).own identity)) = _
      rw [ih, hput]
      rfl

/-- The record of a model does not show labels. -/
theorem ownRecord_relabel (model : Model) :
    Model.ownRecord identity (relabelModel labels model) = model.ownRecord identity := by
  rw [Model.ownRecord, puts_relabelModel, ownAll_relabelled, ownOid_relabel, typeId_relabelModel,
    Model.ownRecord]

/-- Models with one shape have the same record id. -/
theorem ownOid_eq_of_shape_eq {a b : Model} (h : a.shape = b.shape) :
    a.ownOid identity = b.ownOid identity := by
  have hshape : ∀ model : Model, model.shape.ownOid identity = model.ownOid identity :=
    ownOid_relabel identity fun _ => none
  rw [← hshape a, h, hshape b]

/-- Models with one shape have the same record. -/
theorem ownRecord_eq_of_shape_eq {a b : Model} (h : a.shape = b.shape) :
    a.ownRecord identity = b.ownRecord identity := by
  have hshape : ∀ model : Model, model.shape.ownRecord identity = model.ownRecord identity :=
    ownRecord_relabel identity fun _ => none
  rw [← hshape a, h, hshape b]

/-- Where the given ids of records are those of the models, the things that are put are the same. -/
theorem storeAll_eq_ownAll {oidOf : Handle → String} {handle : Handle} {index : Nat}
    {puts : List (String × Put)}
    (hoid : ∀ j key nested, puts[j]? = some (key, .reference nested) →
      oidOf (handle.child (index + j) nested) = nested.ownOid identity) (record : Record) :
    storeAll oidOf handle index puts record = ownAll identity puts record := by
  induction puts generalizing index record with
  | nil => rfl
  | cons first rest ih =>
      obtain ⟨key, put⟩ := first
      have hfirst : put.stored oidOf handle index = put.own identity := by
        cases put with
        | scalar value => rfl
        | reference nested => exact congrArg Scalar.string (hoid 0 key nested rfl)
      rw [storeAll, hfirst]
      refine ih (fun j key nested hput => ?_) _
      rw [Nat.add_right_comm]
      exact hoid (j + 1) key nested hput

end OwnRecord

end Remodel
