import Mathlib.Data.List.Pairwise
import Remodel.Proofs.Record.Emitted
import Remodel.Proofs.Record.OwnRecord
import Remodel.Proofs.Table

/-!
# Shared instances

An instance that stands in several places is written once.  Written once or once for each place, it
comes to the same: a copy in which no two places share an instance gives the same records, some of
them more often and at other positions, so that the same entries are stored under the same ids
(`storedEntries_flatten_copy`).

## Strategy

Neither of the two walks is followed here.  If all models have ids of their own, the record of an
instance is determined by its model (`Model.ownRecord`), and what is written are the records of the
occurrences, whichever of them are one instance (`mem_records_flatten_iff`).  A model and its copy
differ in their labels only, and

* the occurrences of a relabelled model are the relabelled occurrences (`occurrences_relabel`);
* the record of a model does not show labels (`ownRecord_relabel`).

How often a record is written, and before which others, makes no difference to the entries as long
as records with one id are the same (`ofList_eq_of_mem_iff`).
-/

namespace Remodel

open Record Put

/-- No two occurrences are the same instance. -/
def Model.Unshared (model : Model) : Prop :=
  (occurrences model).Pairwise fun a b => ∀ label, a.label = some label → b.label ≠ some label

/-- All occurrences have ids of their own, and those with one record id are structurally
identical. -/
structure Model.Identified (identity : Identity) (model : Model) : Prop where
  ids : ∀ nested ∈ occurrences model, nested.id?.isSome
  shapes : ∀ a ∈ occurrences model, ∀ b ∈ occurrences model, ∀ i j, a.id? = some i →
    b.id? = some j → identity.oid i = identity.oid j → a.shape = b.shape

/-- The entries of the records by their ids.  Of several records with one id the last one counts. -/
def FlatModel.storedEntries (flat : FlatModel) : List (String × List (String × Scalar)) :=
  Table.ofList (flat.records.map fun record => (record.oid, record.entries))

/-! ## What a walk writes -/

section Walk

variable {context : FlattenContext} {root : Model} {oidOf : Handle → String}
  {emitted : List (Handle × Model)} {flat : FlatModel}

/-- The record id of a written instance is that of its model. -/
theorem Emitted.oidOf_eq (h : Emitted context root oidOf emitted flat)
    (hids : ∀ nested ∈ occurrences root, nested.id?.isSome) {handle : Handle} {model : Model}
    (hreached : Reaches root handle model) :
    oidOf handle = model.ownOid context.identity := by
  obtain ⟨n, hoid⟩ := h.ids handle model ((h.instances handle model).mpr hreached)
  obtain ⟨id, hid⟩ := Option.isSome_iff_exists.mp
    (hids model (mem_occurrences_iff.mpr ⟨handle, hreached⟩))
  rw [hoid, Model.ownOid, hid, Option.getD_some, Option.getD_some]

theorem Emitted.recordWith_eq (h : Emitted context root oidOf emitted flat)
    (hids : ∀ nested ∈ occurrences root, nested.id?.isSome) {handle : Handle} {model : Model}
    (hreached : Reaches root handle model) :
    model.recordWith context.identity oidOf handle = model.ownRecord context.identity := by
  have hoid : ∀ j key nested, model.puts[j]? = some (key, .reference nested) →
      oidOf (handle.child (0 + j) nested) = nested.ownOid context.identity := by
    intro j key nested hput
    rw [Nat.zero_add]
    exact h.oidOf_eq hids (hreached.child hput)
  rw [Model.recordWith, storeAll_eq_ownAll context.identity hoid, h.oidOf_eq hids hreached,
    Model.ownRecord]

/-- What is written are the records of the occurrences, if they have ids of their own. -/
theorem mem_records_flatten_iff (context : FlattenContext) {model : Model}
    (hcoherent : model.Coherent) (hids : ∀ nested ∈ occurrences model, nested.id?.isSome)
    (record : Record) :
    record ∈ (model.flatten context).value.records ↔
      ∃ nested ∈ occurrences model, nested.ownRecord context.identity = record := by
  obtain ⟨nested, oid, state, place, hflat, hadds, -, -⟩ := exists_emissions context hcoherent
  obtain ⟨oidOf, hnames⟩ := exists_names hadds.accounts.once
  have hemitted := hadds.emitted_root hnames
  rw [← hflat] at hemitted
  rw [hemitted.records, List.mem_map]
  constructor
  · rintro ⟨⟨handle, nested⟩, hmem, rfl⟩
    have hreached := (hemitted.instances handle nested).mp hmem
    exact ⟨nested, mem_occurrences_iff.mpr ⟨handle, hreached⟩,
      (hemitted.recordWith_eq hids hreached).symm⟩
  · rintro ⟨nested, hnested, rfl⟩
    obtain ⟨handle, hreached⟩ := mem_occurrences_iff.mp hnested
    exact ⟨(handle, nested), (hemitted.instances handle nested).mpr hreached,
      hemitted.recordWith_eq hids hreached⟩

/-- The id of the root's record is that of the root. -/
theorem rootOid_flatten (context : FlattenContext) {model : Model} (hcoherent : model.Coherent)
    (hid : model.id?.isSome) :
    (model.flatten context).value.rootOid = model.ownOid context.identity := by
  obtain ⟨nested, oid, state, place, hflat, -, hoid, -⟩ := exists_emissions context hcoherent
  obtain ⟨id, hid⟩ := Option.isSome_iff_exists.mp hid
  rw [hflat, Model.ownOid]
  rw [hid, Option.getD_some] at hoid ⊢
  exact hoid

end Walk

/-! ## Copies -/

section Copies

variable {model copy : Model}

/-- Where no two occurrences are the same instance, no label stands for two models. -/
theorem Model.Unshared.coherent (h : model.Unshared) : model.Coherent := by
  intro a ha b hb hlabel hsame
  obtain ⟨label, hlabel⟩ := Option.isSome_iff_exists.mp hlabel
  by_contra hne
  have hsymm : Std.Symm fun a b : Model =>
      ∀ label, a.label = some label → b.label ≠ some label :=
    ⟨fun a b hab label hb ha => hab label ha hb⟩
  exact List.Pairwise.forall h ha hb hne label hlabel (hsame ▸ hlabel)

/-- An occurrence in one of two copies has one with its shape in the other. -/
theorem exists_occurrence_of_shape_eq (hcopy : copy.shape = model.shape) {nested : Model}
    (hnested : nested ∈ occurrences copy) :
    ∃ original ∈ occurrences model, original.shape = nested.shape := by
  have hshapes : (occurrences copy).map Model.shape = (occurrences model).map Model.shape := by
    have hoccurrences := congrArg occurrences hcopy
    rwa [Model.shape, Model.shape, occurrences_relabel, occurrences_relabel] at hoccurrences
  have hmem := List.mem_map_of_mem (f := Model.shape) hnested
  rw [hshapes] at hmem
  obtain ⟨original, horiginal, hshape⟩ := List.mem_map.mp hmem
  exact ⟨original, horiginal, hshape⟩

theorem isSome_id?_of_shape_eq (hcopy : copy.shape = model.shape)
    (hids : ∀ nested ∈ occurrences model, nested.id?.isSome) :
    ∀ nested ∈ occurrences copy, nested.id?.isSome := by
  intro nested hnested
  obtain ⟨original, horiginal, hshape⟩ := exists_occurrence_of_shape_eq hcopy hnested
  have hid := hids original horiginal
  rw [← id?_relabelModel fun _ => none] at hid ⊢
  rwa [← Model.shape, ← hshape]

/-- A model and its copy give the same records, labels aside. -/
theorem exists_ownRecord_iff_of_shape_eq (hcopy : copy.shape = model.shape) (identity : Identity)
    (record : Record) :
    (∃ nested ∈ occurrences copy, nested.ownRecord identity = record) ↔
      ∃ nested ∈ occurrences model, nested.ownRecord identity = record := by
  constructor
  · rintro ⟨nested, hnested, rfl⟩
    obtain ⟨original, horiginal, hshape⟩ := exists_occurrence_of_shape_eq hcopy hnested
    exact ⟨original, horiginal, ownRecord_eq_of_shape_eq identity hshape⟩
  · rintro ⟨nested, hnested, rfl⟩
    obtain ⟨other, hother, hshape⟩ := exists_occurrence_of_shape_eq hcopy.symm hnested
    exact ⟨other, hother, ownRecord_eq_of_shape_eq identity hshape⟩

/-- Records of occurrences with one id are the same. -/
theorem Model.Identified.ownRecord_eq {identity : Identity} (h : model.Identified identity)
    {a b : Model} (ha : a ∈ occurrences model) (hb : b ∈ occurrences model)
    (hoid : (a.ownRecord identity).oid = (b.ownRecord identity).oid) :
    a.ownRecord identity = b.ownRecord identity := by
  obtain ⟨i, hi⟩ := Option.isSome_iff_exists.mp (h.ids a ha)
  obtain ⟨j, hj⟩ := Option.isSome_iff_exists.mp (h.ids b hb)
  rw [oid_ownRecord, oid_ownRecord, Model.ownOid, Model.ownOid, hi, hj] at hoid
  exact ownRecord_eq_of_shape_eq identity (h.shapes a ha b hb i j hi hj hoid)

/-- The records that are written have different ids, unless they are the same. -/
theorem Model.Identified.eq_of_oid_eq {context : FlattenContext}
    (h : model.Identified context.identity) (hcoherent : model.Coherent) {a b : Record}
    (ha : a ∈ (model.flatten context).value.records)
    (hb : b ∈ (model.flatten context).value.records) (hoid : a.oid = b.oid) : a = b := by
  obtain ⟨first, hfirst, rfl⟩ := (mem_records_flatten_iff context hcoherent h.ids a).mp ha
  obtain ⟨second, hsecond, rfl⟩ := (mem_records_flatten_iff context hcoherent h.ids b).mp hb
  exact h.ownRecord_eq hfirst hsecond hoid

/-- **Sharing does not change what is stored.**  In a model let all occurrences have ids of their
own, and let those with one record id be structurally identical.  Then a copy in which every
occurrence is an instance of its own has the same root and the same entries under the same ids, and
none of the records of the two has other entries than those. -/
theorem storedEntries_flatten_copy (context : FlattenContext) {model copy : Model}
    (hcoherent : model.Coherent) (hidentified : model.Identified context.identity)
    (hcopy : copy.shape = model.shape) (hunshared : copy.Unshared) :
    let shared := (model.flatten context).value
    let plain := (copy.flatten context).value
    plain.rootOid = shared.rootOid ∧ plain.storedEntries = shared.storedEntries ∧
      ∀ record ∈ shared.records ++ plain.records,
        shared.storedEntries.lookup record.oid = some record.entries := by
  intro shared plain
  have hids := hidentified.ids
  have hcopyIds := isSome_id?_of_shape_eq hcopy hids
  have hrecords : ∀ record, record ∈ plain.records ↔ record ∈ shared.records := by
    intro record
    rw [mem_records_flatten_iff context hunshared.coherent hcopyIds,
      mem_records_flatten_iff context hcoherent hids]
    exact exists_ownRecord_iff_of_shape_eq hcopy context.identity record
  have hsingle : ∀ a ∈ shared.records.map fun record => (record.oid, record.entries),
      ∀ b ∈ shared.records.map fun record => (record.oid, record.entries),
        a.1 = b.1 → a = b := by
    intro a ha b hb hkey
    obtain ⟨first, hfirst, rfl⟩ := List.mem_map.mp ha
    obtain ⟨second, hsecond, rfl⟩ := List.mem_map.mp hb
    rw [hidentified.eq_of_oid_eq hcoherent hfirst hsecond hkey]
  refine ⟨?_, ?_, fun record hrecord => ?_⟩
  · rw [rootOid_flatten context hunshared.coherent (hcopyIds copy (self_mem_occurrences copy)),
      rootOid_flatten context hcoherent (hids model (self_mem_occurrences model))]
    exact ownOid_eq_of_shape_eq context.identity hcopy
  · refine (Table.ofList_eq_of_mem_iff (fun entry => ?_) hsingle).symm
    simp only [List.mem_map, hrecords]
  · have hmem : record ∈ shared.records := by
      rcases List.mem_append.mp hrecord with hshared | hplain
      · exact hshared
      · exact (hrecords record).mp hplain
    exact (Table.lookup_ofList_eq_some_iff hsingle).mpr (List.mem_map_of_mem hmem)

end Copies

/-! ### A shift whose lead is a member -/

namespace Shift

def person : Descriptor := ⟨"Person", some "name", [⟨"name", .string, true⟩]⟩

def shift : Descriptor :=
  ⟨"Shift", some "name",
    [⟨"name", .string, true⟩, ⟨"lead", .model "Person", true⟩,
      ⟨"members", .list (.model "Person"), true⟩]⟩

def context : FlattenContext := ⟨⟨"example.org", "shifts", "main"⟩, fun _ => "drawn"⟩

def ann : Model := ⟨person, [("name", .string "Ann")], some 0⟩

def ben : Model := ⟨person, [("name", .string "Ben")], some 1⟩

def night : Model :=
  ⟨shift, [("lead", .model ann), ("members", .list [.model ben, .model ann]),
    ("name", .string "Night")], some 2⟩

/-- Here Ann is two instances. -/
def copy : Model :=
  ⟨shift, [("lead", .model ann),
    ("members", .list [.model ben, .model { ann with label := some 3 }]),
    ("name", .string "Night")], some 2⟩

theorem occurrences_night : occurrences night = [ann, ben, ann, night] := rfl

theorem storedEntries_flatten_night :
    (copy.flatten context).value.rootOid = (night.flatten context).value.rootOid ∧
      (copy.flatten context).value.storedEntries = (night.flatten context).value.storedEntries := by
  have hcoherent : night.Coherent := by
    unfold Model.Coherent
    rw [occurrences_night]
    simp [ann, ben, night]
  have hids : ∀ nested ∈ occurrences night, nested.id?.isSome := by
    rw [occurrences_night]
    decide
  have hidentified : night.Identified context.identity := by
    refine ⟨hids, fun a ha b hb i j hi hj hoid => ?_⟩
    have hid : a.id? = b.id? := by rw [hi, hj, context.identity.oid_injective hoid]
    simp only [occurrences_night, List.mem_cons, List.not_mem_nil, or_false] at ha hb
    rcases ha with rfl | rfl | rfl | rfl <;> rcases hb with rfl | rfl | rfl | rfl <;>
      first | rfl | exact absurd hid (by decide)
  have hcopy : copy.shape = night.shape := rfl
  have hunshared : copy.Unshared := by
    have hlabels : (occurrences copy).map Instance.label = [some 0, some 1, some 3, some 2] := rfl
    refine List.Pairwise.of_map (S := fun a b => ∀ label, a = some label → b ≠ some label)
      Instance.label (fun _ _ h => h) ?_
    rw [hlabels]
    simp
  obtain ⟨hroot, hentries, -⟩ :=
    storedEntries_flatten_copy context hcoherent hidentified hcopy hunshared
  exact ⟨hroot, hentries⟩

/-- Ann is written once for the shift, and twice for its copy. -/
example : (night.flatten context).value.records.map Record.oid =
      ["example.org/shifts/Ann", "example.org/shifts/Ben", "example.org/shifts/Night"] ∧
    (copy.flatten context).value.records.map Record.oid =
      ["example.org/shifts/Ann", "example.org/shifts/Ben", "example.org/shifts/Ann",
        "example.org/shifts/Night"] := by decide

end Shift

end Remodel
