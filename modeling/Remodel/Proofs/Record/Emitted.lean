import Mathlib.Algebra.Order.BigOperators.Group.List
import Mathlib.Algebra.Order.Group.Nat
import Mathlib.Data.List.Pairwise
import Remodel.Proofs.Record.Emitting
import Remodel.Proofs.Record.InMemory

/-!
# The records of a flattened model

Flattening gives one record for every instance that the model reaches, those that an instance refers
to before its own, and the model's own at last (`Emitted`).  This goes for every memory: whatever
address a model that is built by a reading comes to lie at, it is not taken for another instance
(`emitted_flattenIn`).

Every reference is put into the record as the id of the record of the instance that is referred to.
It stands there unless something is put under the same key later: the keys of two fields may meet
(`reference_overwritten`), and the connector and the type of the model are put last, whatever fields
the model has.
-/

namespace Remodel

open Record Flattening Put

/-- The records are those of a list of instances and their models, under ids that are given by the
instances.

* No instance is in the list twice, and the instances in it are those that the root reaches.
* What an instance refers to comes before it, and the root comes last.
* In a record stands what was put into it in turn (`Model.recordWith`), for a reference the id of
  the record of what is referred to.  So this id stands there, unless something is put under the key
  later or the key is one of those that every record has.
* The connector and the type of the model stand in every record.
* The id of a record is made of the model's own id, or of a drawn one; if the drawn ones are all
  different, then different instances without ids of their own have records with different ids. -/
structure Emitted (context : FlattenContext) (root : Model) (oidOf : Handle → String)
    (emitted : List (Handle × Model)) (flat : FlatModel) : Prop where
  records : flat.records =
    emitted.map fun entry => entry.2.recordWith context.identity oidOf entry.1
  once : (emitted.map Prod.fst).Nodup
  instances : ∀ handle model, (handle, model) ∈ emitted ↔ Reaches root handle model
  nestedFirst : ∀ earlier handle model later,
    emitted = earlier ++ (handle, model) :: later →
      ∀ index key nested, model.puts[index]? = some (key, .reference nested) →
        (handle.child index nested, nested) ∈ earlier
  rootLast : emitted.getLast? = some (.root root, root)
  rootOid : flat.rootOid = (root.recordWith context.identity oidOf (.root root)).oid
  references : ∀ handle model, (handle, model) ∈ emitted →
    ∀ index key nested, model.puts[index]? = some (key, .reference nested) →
      key ∉ (model.puts.drop (index + 1)).map Prod.fst → key ∉ reservedKeys →
        (model.recordWith context.identity oidOf handle).get? key =
          some (.string (nested.recordWith context.identity oidOf (handle.child index nested)).oid)
  stamps : ∀ handle model, (handle, model) ∈ emitted →
    let record := model.recordWith context.identity oidOf handle
    record.get? domainKey = some (.string context.identity.domainId) ∧
      record.get? connectorKey = some (.string context.identity.connectorId) ∧
      record.get? instanceKey = some (.string context.identity.instanceId) ∧
      record.get? modelTypeKey = some (.string model.typeId)
  ids : ∀ handle model, (handle, model) ∈ emitted →
    ∃ n, oidOf handle = context.identity.oid (model.id?.getD (context.drawnId n))
  apart : Function.Injective context.drawnId →
    ∀ handle model other nested, (handle, model) ∈ emitted → (other, nested) ∈ emitted →
      handle ≠ other → model.id? = none → nested.id? = none → oidOf handle ≠ oidOf other

/-! ## A run from the beginning -/

section Run

variable {context : FlattenContext} {model : Model}

/-- The root is due when nothing has been written. -/
theorem due_root (context : FlattenContext) (meaning : Nat → Model) (model : Model) :
    Due context model meaning (.root model) model [] ⟨[], [], 0⟩ where
  reached := .root
  labelled label hlabel := by rw [Handle.root, hlabel]
  accounts := by
    refine ⟨fun _ _ => rfl, List.nodup_nil, List.forall_mem_nil _, List.forall_mem_nil _,
      fun earlier emission later heq => ?_⟩
    cases earlier <;> cases heq
  known label oid hseen := by cases hseen
  free hlabel := by
    refine ⟨fun label hroot => ?_, List.forall_mem_nil _⟩
    rw [Handle.root, hlabel] at hroot
    cases hroot

/-- A label stands for the instances that carry it. -/
theorem Model.Coherent.instanceOf_of_reaches (hcoherent : model.Coherent) (handle : Handle)
    (nested : Model) (hreached : Reaches model handle nested) (label : Nat)
    (hlabel : nested.label = some label) : instanceOf model label = nested :=
  hcoherent.instanceOf_eq (mem_occurrences_iff.mpr ⟨handle, hreached⟩) hlabel

/-- What has been written after the whole run: the nested instances and at last the root.  If the
root's id is drawn, it is the first that is. -/
theorem exists_emissions (context : FlattenContext) (hcoherent : model.Coherent) :
    ∃ (nested : List Emission) (oid : String) (state : FlattenState) (place : Handle → Prop),
      (model.flatten context).value = ⟨oid, state.records⟩ ∧
      Adds context model (instanceOf model) place [] ⟨[], [], 0⟩
        (nested ++ [⟨.root model, model, oid⟩]) state ∧
      oid = context.identity.oid (model.id?.getD (context.drawnId 0)) ∧
      ∀ emission ∈ nested, ∃ n, (if model.id? = none then 1 else 0) ≤ n ∧
        emission.IdOf context n := by
  have hdue := due_root context (instanceOf model) model
  have hmeaning := hcoherent.instanceOf_of_reaches
  have hunseen : model.label.bind (([] : List (Nat × String)).lookup ·) = none := by
    cases model.label <;> rfl
  obtain ⟨nested, state, hexec, hadds, hnested⟩ := hdue.adds_of_unseen
    (hmeaning _ model .root) (fun nested _ => emits hmeaning nested) hunseen
  refine ⟨nested, _, state, _, ?_, hadds, oid_begun context model _, ?_⟩
  · exact congrArg (fun result => (⟨result.1, result.2.records⟩ : FlatModel)) hexec
  · rw [drawn_begun, Nat.zero_add] at hnested
    exact hnested

end Run

/-! ## Every instance is written once -/

section Emitted

variable {context : FlattenContext} {root : Model} {emitted : List Emission}
  {state : FlattenState}

/-- An instance with its model. -/
def Emission.entry (emission : Emission) : Handle × Model := (emission.handle, emission.model)

/-- If the root has been written, then so have been the instances that it reaches, and no others. -/
theorem Accounts.mem_entries_iff (h : Accounts context root emitted state)
    (hroot : (.root root, root) ∈ emitted.map Emission.entry) (handle : Handle) (model : Model) :
    (handle, model) ∈ emitted.map Emission.entry ↔ Reaches root handle model := by
  constructor
  · intro hmem
    obtain ⟨emission, hemission, heq⟩ := List.mem_map.mp hmem
    cases heq
    exact h.reached emission hemission
  · intro hreached
    induction hreached with
    | root => exact hroot
    | child hholder hput ih =>
        obtain ⟨holder, hmem, heq⟩ := List.mem_map.mp ih
        cases heq
        obtain ⟨earlier, later, hsplit⟩ := List.append_of_mem hmem
        obtain ⟨child, hchild, hhandle, hmodel⟩ :=
          h.ordered earlier holder later hsplit _ _ _ hput
        rw [← hhandle, ← hmodel, hsplit]
        exact List.mem_map_of_mem (List.mem_append_left _ hchild)

/-- What an instance refers to comes before it in the list of instances and models. -/
theorem Accounts.mem_earlier (h : Accounts context root emitted state)
    {earlier later : List (Handle × Model)} {handle : Handle} {model nested : Model} {index : Nat}
    {key : String} (hsplit : emitted.map Emission.entry = earlier ++ (handle, model) :: later)
    (hput : model.puts[index]? = some (key, .reference nested)) :
    (handle.child index nested, nested) ∈ earlier := by
  obtain ⟨before, rest, rfl, rfl, hrest⟩ := List.map_eq_append_iff.mp hsplit
  obtain ⟨emission, after, rfl, hentry, -⟩ := List.map_eq_cons_iff.mp hrest
  cases hentry
  obtain ⟨child, hchild, hhandle, hmodel⟩ := h.ordered before emission after rfl _ _ _ hput
  rw [← hhandle, ← hmodel]
  exact List.mem_map_of_mem hchild

/-- Different instances without ids of their own have different ids of records. -/
theorem Names.ne_of_apart {oidOf : Handle → String} (hnames : Names oidOf emitted)
    (hapart : emitted.Pairwise Emission.Apart) {handle other : Handle} {model nested : Model}
    (hmodel : (handle, model) ∈ emitted.map Emission.entry)
    (hnested : (other, nested) ∈ emitted.map Emission.entry) (hne : handle ≠ other)
    (hnone : model.id? = none) (hother : nested.id? = none) : oidOf handle ≠ oidOf other := by
  obtain ⟨first, hfirst, heq⟩ := List.mem_map.mp hmodel
  cases heq
  obtain ⟨second, hsecond, heq⟩ := List.mem_map.mp hnested
  cases heq
  rw [hnames first hfirst, hnames second hsecond]
  have hdiffer : first ≠ second := fun heq => hne (congrArg Emission.handle heq)
  exact hapart.forall hfirst hsecond hdiffer hnone hother

/-- The records of all instances of a root, once they have been written and the root at last. -/
theorem Adds.emitted_root {meaning : Nat → Model} {place : Handle → Prop} {nested : List Emission}
    {oid : String}
    (h : Adds context root meaning place [] ⟨[], [], 0⟩ (nested ++ [⟨.root root, root, oid⟩]) state)
    {oidOf : Handle → String} (hnames : Names oidOf (nested ++ [⟨.root root, root, oid⟩])) :
    Emitted context root oidOf
      (nested.map Emission.entry ++ [(.root root, root)]) ⟨oid, state.records⟩ := by
  have haccounts := h.accounts
  rw [List.nil_append] at haccounts
  set all := nested ++ [⟨.root root, root, oid⟩] with hall
  have hentries : nested.map Emission.entry ++ [(.root root, root)] = all.map Emission.entry := by
    rw [hall, List.map_append]
    rfl
  have hroot : (Handle.root root, root) ∈ all.map Emission.entry := by
    rw [← hentries]
    exact List.mem_concat_self
  rw [hentries]
  exact
    { records := by
        rw [List.map_map]
        exact haccounts.records oidOf hnames
      once := by
        rw [List.map_map]
        exact haccounts.once
      instances := haccounts.mem_entries_iff hroot
      nestedFirst := fun earlier handle model later hsplit index key nested hput =>
        haccounts.mem_earlier hsplit hput
      rootLast := by
        rw [← hentries]
        exact List.getLast?_concat
      rootOid := by
        rw [oid_recordWith]
        exact (hnames _ List.mem_concat_self).symm
      references := fun handle model _ index key nested hput hlast hkey => by
        rw [get?_recordWith _ _ _ _ hput hlast hkey, oid_recordWith]
        rfl
      stamps := fun handle model _ => stamped_recordWith _ _ _ _
      ids := fun handle model hmem => by
        obtain ⟨emission, hemission, heq⟩ := List.mem_map.mp hmem
        cases heq
        obtain ⟨n, -, -, hid⟩ := h.ids emission hemission
        exact ⟨n, (hnames emission hemission).trans hid⟩
      apart := fun hdrawn handle model other nested hmodel hnested hne hnone hother =>
        hnames.ne_of_apart (h.apart hdrawn) hmodel hnested hne hnone hother }

end Emitted

theorem emitted_flatten (context : FlattenContext) {model : Model} (hcoherent : model.Coherent) :
    ∃ oidOf emitted, Emitted context model oidOf emitted (model.flatten context).value := by
  obtain ⟨nested, oid, state, place, hflat, hadds, -, -⟩ := exists_emissions context hcoherent
  obtain ⟨oidOf, hnames⟩ := exists_names hadds.accounts.once
  rw [hflat]
  exact ⟨oidOf, _, hadds.emitted_root hnames⟩

/-- **Every instance is written once, and what it refers to before it.**  For every coherent model,
every connector and every memory there is one record for each instance that the model reaches, those
of nested instances first and the model's own at last; a reference is put into a record as the id of
the record of what is referred to, and stands there unless its key is written again; and every
record has the connector and the type of its model. -/
theorem emitted_flattenIn (memory : Memory) (context : FlattenContext) {model : Model}
    (hcoherent : model.Coherent) :
    ∃ oidOf emitted, Emitted context model oidOf emitted (model.flattenIn memory context).value := by
  rw [flattenIn_eq_flatten]
  exact emitted_flatten context hcoherent

/-! ## A crew with a shared lead and a guest who is new at every reading -/

namespace Crew

def person : Descriptor := ⟨"Person", some "name", [⟨"name", .string, true⟩]⟩

/-- One field has the name of a key that every record has. -/
def crew : Descriptor :=
  ⟨"Crew", none,
    [⟨"lead", .model "Person", true⟩, ⟨"members", .list (.model "Person"), true⟩,
      ⟨"domainId", .string, true⟩]⟩

def context : FlattenContext := ⟨⟨"example.org", "crews", "main"⟩, fun _ => "drawn"⟩

def ann : Model := ⟨person, [("name", .string "Ann")], some 0⟩

/-- A model without label: read twice, it is two instances. -/
def guest : Model := ⟨person, [("name", .string "Guest")], none⟩

def night : Model :=
  ⟨crew, [("domainId", .string "elsewhere"), ("lead", .model ann),
    ("members", .list [.model guest, .model ann, .model guest])], none⟩

theorem coherent_night : night.Coherent := by
  have hoccurrences : occurrences night = [ann, guest, ann, guest, night] := rfl
  unfold Model.Coherent
  rw [hoccurrences]
  simp [ann, guest, night]

theorem le_foldr_max {address : Address} {inUse : List Address} (h : address ∈ inUse) :
    address ≤ inUse.foldr Nat.max 0 := by
  induction inUse with
  | nil => exact absurd h List.not_mem_nil
  | cons first rest ih =>
      rw [List.foldr_cons]
      rcases List.mem_cons.mp h with rfl | h
      · exact Nat.le_max_left ..
      · exact Nat.le_trans (ih h) (Nat.le_max_right ..)

/-- A memory that puts every model at the lowest address above those that are in use. -/
def memory : Memory where
  root := 0
  place _ inUse := inUse.foldr Nat.max 0 + 1
  place_not_mem _ _ hmem := Nat.not_succ_le_self _ (le_foldr_max hmem)

theorem emitted_flattenIn_night :
    ∃ oidOf emitted, Emitted context night oidOf emitted (night.flattenIn memory context).value :=
  emitted_flattenIn memory context coherent_night

/-- Ann is written once, and the guest twice. -/
example : (night.flattenIn memory context).value.records.map Record.oid =
    ["example.org/crews/Ann", "example.org/crews/Guest", "example.org/crews/Guest",
      "example.org/crews/drawn"] := by decide

/-- The last field has the name that is the key of the first element of the list. -/
def pair : Descriptor :=
  ⟨"Pair", some "title",
    [⟨"title", .string, true⟩, ⟨"member", .list (.model "Person"), true⟩,
      ⟨"member0", .string, true⟩]⟩

def reserve : Model :=
  ⟨pair, [("member", .list [.model ann]), ("member0", .string "none"), ("title", .string "Night")],
    none⟩

/-- A reference does not stand in its record if the key of another field meets its own: the model
refers to Ann, whose record is written, but the id of her record is in no record. -/
theorem reference_overwritten :
    reserve.puts[1]? = some ("member0", .reference ann) ∧
      (reserve.flattenIn memory context).value.records.map Record.oid =
        ["example.org/crews/Ann", "example.org/crews/Night"] ∧
      ∀ record ∈ (reserve.flattenIn memory context).value.records, ∀ entry ∈ record.entries,
        entry.2 ≠ .string "example.org/crews/Ann" :=
  have hkey : itemKey "member" 0 = "member0" := by decide +kernel
  ⟨hkey ▸ rfl, by decide, by decide +kernel⟩

end Crew

end Remodel
