import Remodel.Proofs.Record.Puts

/-!
# Instances

A model is met once for every way that leads to it, but the ways to a labelled model lead to one
instance.  A model without label is built anew whenever its holder is read, so it is told from
others by its holder and by where the holder refers to it.  What identifies an instance is
therefore the nearest label above it and the way down from there (`Handle`).

The instances of a model are those it reaches through references (`Reaches`); the models they are
of are the occurrences in the model (`mem_occurrences_iff`).  If the ids of the records are given,
the record of an instance is determined (`Model.recordWith`).
-/

namespace Remodel

open Record Put

/-- What tells an instance from others: the nearest label at or above it, and by which indices one
goes from there to the instance.  Above an instance without label there may be no label at all;
then the way begins at the root. -/
structure Handle where
  label : Option Nat
  path : List Nat

namespace Handle

/-- The handle of the model that everything else is reached from. -/
def root (model : Model) : Handle := ⟨model.label, []⟩

/-- The handle of a model that an instance refers to at an index. -/
def child (handle : Handle) (index : Nat) (model : Model) : Handle :=
  match model.label with
  | some label => ⟨some label, []⟩
  | none => ⟨handle.label, handle.path ++ [index]⟩

/-- Whether the way to one instance goes on to another one without meeting a label. -/
def Within (handle other : Handle) : Prop :=
  ∃ path, other = ⟨handle.label, handle.path ++ path⟩

/-- Whether the way to one instance goes on to another one, at an index that is not smaller. -/
def Below (handle : Handle) (index : Nat) (other : Handle) : Prop :=
  ∃ j path, index ≤ j ∧ other = ⟨handle.label, handle.path ++ j :: path⟩

variable {handle other : Handle} {index : Nat} {model : Model}

theorem child_of_label {label : Nat} (h : model.label = some label) :
    handle.child index model = ⟨some label, []⟩ := by
  rw [child, h]

theorem child_of_no_label (h : model.label = none) :
    handle.child index model = ⟨handle.label, handle.path ++ [index]⟩ := by
  rw [child, h]

theorem within_self (handle : Handle) : handle.Within handle :=
  ⟨[], by rw [List.append_nil]⟩

theorem Within.label_eq (h : handle.Within other) : other.label = handle.label := by
  obtain ⟨path, rfl⟩ := h
  rfl

theorem Below.within (h : handle.Below index other) : handle.Within other := by
  obtain ⟨j, path, -, rfl⟩ := h
  exact ⟨j :: path, rfl⟩

theorem not_below_self : ¬ handle.Below index handle := by
  rintro ⟨j, path, -, heq⟩
  have hlength := congrArg (fun h : Handle => h.path.length) heq
  simp at hlength

theorem Below.of_succ (h : handle.Below (index + 1) other) : handle.Below index other := by
  obtain ⟨j, path, hj, rfl⟩ := h
  exact ⟨j, path, by omega, rfl⟩

/-- What is within a child without label is below its holder, from the index of the child on. -/
theorem Within.below (hlabel : model.label = none) (h : (handle.child index model).Within other) :
    handle.Below index other := by
  rw [child_of_no_label hlabel] at h
  obtain ⟨path, rfl⟩ := h
  exact ⟨index, path, Nat.le_refl index, by simp⟩

/-- What is within a child without label is not below its holder at larger indices. -/
theorem Within.not_below (hlabel : model.label = none)
    (h : (handle.child index model).Within other) : ¬ handle.Below (index + 1) other := by
  rw [child_of_no_label hlabel] at h
  obtain ⟨path, rfl⟩ := h
  rintro ⟨j, rest, hj, heq⟩
  simp only [Handle.mk.injEq, List.append_assoc, List.cons_append, List.nil_append,
    List.append_cancel_left_eq, List.cons.injEq, true_and] at heq
  omega

end Handle

/-- The instances that are reached from a model through references. -/
inductive Reaches (root : Model) : Handle → Model → Prop
  | root : Reaches root (.root root) root
  | child {handle : Handle} {model nested : Model} {index : Nat} {key : String} :
    Reaches root handle model → model.puts[index]? = some (key, .reference nested) →
      Reaches root (handle.child index nested) nested

/-! ## Instances and occurrences -/

theorem Reaches.sizeOf_le {root model : Model} {handle : Handle} (h : Reaches root handle model) :
    sizeOf model ≤ sizeOf root := by
  induction h with
  | root => exact Nat.le_refl _
  | child hholder hput ih =>
      have hsmaller := sizeOf_lt_of_reference (mem_referred_of_getElem? hput)
      exact (Nat.le_of_lt hsmaller).trans ih

/-- The models of nested instances are smaller than the root. -/
theorem Reaches.sizeOf_lt {root model : Model} {handle : Handle} (h : Reaches root handle model)
    (hne : handle ≠ .root root) : sizeOf model < sizeOf root := by
  cases h with
  | root => exact absurd rfl hne
  | child hholder hput =>
      have hsmaller := sizeOf_lt_of_reference (mem_referred_of_getElem? hput)
      exact Nat.lt_of_lt_of_le hsmaller hholder.sizeOf_le

theorem occurrences_subset_of_reference {model nested : Model} (h : nested ∈ referred model.puts) :
    occurrences nested ⊆ occurrences model := by
  intro other hother
  rw [occurrences_eq model, List.mem_append, List.mem_flatMap]
  exact Or.inl ⟨nested, h, hother⟩

theorem Reaches.occurrences_subset {root model : Model} {handle : Handle}
    (h : Reaches root handle model) : occurrences model ⊆ occurrences root := by
  induction h with
  | root => exact List.Subset.refl _
  | child hholder hput ih =>
      have hnested := mem_referred_of_getElem? hput
      exact List.Subset.trans (occurrences_subset_of_reference hnested) ih

theorem Reaches.exists_of_mem_occurrences {root model nested : Model} {handle : Handle}
    (h : Reaches root handle model) (hnested : nested ∈ occurrences model) :
    ∃ other, Reaches root other nested := by
  rw [occurrences_eq, List.mem_append, List.mem_flatMap, List.mem_singleton] at hnested
  rcases hnested with ⟨child, hchild, hnested⟩ | rfl
  · obtain ⟨key, hput⟩ := mem_referred.mp hchild
    obtain ⟨index, hput⟩ := List.getElem?_of_mem hput
    have hsmaller := sizeOf_lt_of_reference hchild
    exact (h.child hput).exists_of_mem_occurrences hnested
  · exact ⟨handle, h⟩
termination_by sizeOf model

/-- The models of the instances are the occurrences. -/
theorem mem_occurrences_iff {root nested : Model} :
    nested ∈ occurrences root ↔ ∃ handle, Reaches root handle nested :=
  ⟨Reaches.root.exists_of_mem_occurrences, fun ⟨_, h⟩ =>
    h.occurrences_subset (self_mem_occurrences nested)⟩

/-! ## Records -/

/-- What stands under the key of something that is put into the record of an instance, when the ids
of records are given. -/
def Put.stored (oidOf : Handle → String) (handle : Handle) (index : Nat) : Put → Scalar
  | .scalar value => value
  | .reference nested => .string (oidOf (handle.child index nested))

/-- Puts several things into the record of an instance, from an index on. -/
def Put.storeAll (oidOf : Handle → String) (handle : Handle) :
    Nat → List (String × Put) → Record → Record
  | _, [], record => record
  | index, (key, put) :: rest, record =>
    storeAll oidOf handle (index + 1) rest (record.put key (put.stored oidOf handle index))

/-- The record of an instance, when the ids of records are given. -/
def Model.recordWith (identity : Identity) (oidOf : Handle → String) (handle : Handle)
    (model : Model) : Record :=
  (storeAll oidOf handle 0 model.puts (Record.new (oidOf handle))).stamp identity model.typeId

section Records

variable (identity : Identity) (oidOf : Handle → String) (handle : Handle) (model : Model)

theorem oid_storeAll (index : Nat) (puts : List (String × Put)) (record : Record) :
    (storeAll oidOf handle index puts record).oid = record.oid := by
  induction puts generalizing index record with
  | nil => rfl
  | cons put rest ih => exact ih (index + 1) _

theorem oid_recordWith : (model.recordWith identity oidOf handle).oid = oidOf handle :=
  oid_storeAll oidOf handle 0 model.puts _

/-- The connector and the type of the model stand in every record, whatever else was put there. -/
theorem stamped_recordWith :
    let record := model.recordWith identity oidOf handle
    record.get? domainKey = some (.string identity.domainId) ∧
      record.get? connectorKey = some (.string identity.connectorId) ∧
      record.get? instanceKey = some (.string identity.instanceId) ∧
      record.get? modelTypeKey = some (.string model.typeId) := by
  intro record
  refine ⟨?_, ?_, ?_, get?_put_self ..⟩ <;>
    simp [record, Model.recordWith, stamp, get?_put_of_ne, domainKey, connectorKey, instanceKey,
      modelTypeKey]

theorem get?_storeAll_of_not_mem {index : Nat} {puts : List (String × Put)} {key : String}
    (h : key ∉ puts.map Prod.fst) (record : Record) :
    (storeAll oidOf handle index puts record).get? key = record.get? key := by
  induction puts generalizing index record with
  | nil => rfl
  | cons put rest ih =>
      rw [List.map_cons, List.mem_cons, not_or] at h
      rw [storeAll, ih h.2, get?_put_of_ne _ _ h.1]

/-- What is put last under a key stands there. -/
theorem get?_storeAll {index j : Nat} {puts : List (String × Put)} {key : String} {put : Put}
    (hput : puts[j]? = some (key, put)) (hlast : key ∉ (puts.drop (j + 1)).map Prod.fst)
    (record : Record) :
    (storeAll oidOf handle index puts record).get? key =
      some (put.stored oidOf handle (index + j)) := by
  induction puts generalizing index j record with
  | nil => cases hput
  | cons first rest ih =>
      cases j with
      | zero =>
          obtain rfl : first = (key, put) := by simpa using hput
          exact (get?_storeAll_of_not_mem oidOf handle hlast _).trans (get?_put_self ..)
      | succ j =>
          have hrest := @ih (index + 1) j hput hlast
          rw [storeAll, hrest, Nat.add_right_comm, Nat.add_assoc]

/-- What is put last under a key of the model's own stands there in the record. -/
theorem get?_recordWith {index : Nat} {key : String} {put : Put}
    (hput : model.puts[index]? = some (key, put))
    (hlast : key ∉ (model.puts.drop (index + 1)).map Prod.fst) (hkey : key ∉ reservedKeys) :
    (model.recordWith identity oidOf handle).get? key =
      some (put.stored oidOf handle index) := by
  rw [Model.recordWith, get?_stamp_of_not_mem _ _ _ hkey, get?_storeAll _ _ hput hlast,
    Nat.zero_add]

end Records

end Remodel
