import Mathlib.Logic.Relation
import Remodel.Proofs.Record.Following

/-!
# What can end a rebuilding

Whatever the entries of a record are, only two things end the rebuilding of its model without a
result: a type that cannot be resolved or has no instances, and a record that cannot be fetched.
Where all types are usable, a rebuilding that comes to an end gives what there is as soon as every
request for a record succeeds, and else the fault of the first request that does not
(`result_of_ends`).

## Strategy

`requests` lists the ids that are asked for, in the order of fields and indexes and each before
those that its own record asks for.  By induction on the depth:

* where there is a result, every request succeeded (`fetched_of_result`);
* where there is an error, it is that of a type which the first one leads to, or that of the first
  request that fails (`fault_of_result`), since all references before it have come back.
-/

namespace Remodel

/-- The types of the models that values of a kind hold. -/
def Kind.modelTypes : Kind → List String
  | .model typeId => [typeId]
  | .list item => item.modelTypes
  | .map key value => key.modelTypes ++ value.modelTypes
  | _ => []

namespace Rebuild

open Relation

/-- A type declares a field for models of another type. -/
def Mentions (types : TypeTable) (typeId other : String) : Prop :=
  ∃ descriptor, types.resolve typeId = .ok descriptor ∧
    ∃ field ∈ descriptor.fields, other ∈ field.kind.modelTypes

/-- A type and all that its declaration leads to are resolved and have instances. -/
def Usable (types : TypeTable) (typeId : String) : Prop :=
  ∀ other, ReflTransGen (Mentions types) typeId other →
    ∃ blank, types.instantiate other = .ok blank

/-- An error is that of a type which the declaration of another one leads to. -/
def TypeFault (types : TypeTable) (typeId : String) (error : Error) : Prop :=
  ∃ other, ReflTransGen (Mentions types) typeId other ∧ types.instantiate other = .error error

/-- The ids that are asked for when a reference is followed: its own, and then those that the
record with it asks for. -/
def requestsVia (fetch : RecordFetch) (nested : String → Record → List String)
    (reference : Reference) : List String :=
  reference.oid ::
    match fetch reference.oid with
    | .ok child => nested reference.typeId child
    | .error _ => []

/-- The ids that are asked for when references are followed to a depth, in the order in which they
are, as if no request ended the whole. -/
def requests (types : TypeTable) (fetch : RecordFetch) : Nat → String → Record → List String
  | 0, _, _ => []
  | depth + 1, typeId, record =>
    (references types typeId record).flatMap (requestsVia fetch (requests types fetch depth))

/-- The fault of the first id that cannot be fetched. -/
def firstFault? (fetch : RecordFetch) (oids : List String) : Option StoreFault :=
  oids.findSome? fun oid =>
    match fetch oid with
    | .ok _ => none
    | .error fault => some fault

instance {α : Type} (result : Except RebuildFault α) : Decidable (result = .error .tooDeep) :=
  match result with
  | .error .tooDeep => isTrue rfl
  | .error (.error _) => isFalse nofun
  | .ok _ => isFalse nofun

variable {types : TypeTable} {fetch : RecordFetch} {typeId : String} {record : Record}
  {reference : Reference} {depth : Nat}

/-! ## Types that references lead to -/

theorem mem_modelTypes_of_mem_referencesAt {key : String} {kind : Kind}
    (h : reference ∈ referencesAt record key kind) : reference.typeId ∈ kind.modelTypes := by
  unfold referencesAt at h
  split at h
  · rw [List.mem_singleton.mp h]
    exact List.mem_singleton_self _
  · exact absurd h List.not_mem_nil

theorem modelTypes_elementKind_subset (kind : Kind) :
    kind.elementKind.modelTypes ⊆ kind.modelTypes := by
  cases kind <;> exact fun _ h => h

theorem modelTypes_entryOrSelf_subset (kind : Kind) :
    kind.entryOrSelf.1.modelTypes ⊆ kind.modelTypes ∧
      kind.entryOrSelf.2.modelTypes ⊆ kind.modelTypes := by
  cases kind with
  | map key value => exact ⟨List.subset_append_left _ _, List.subset_append_right _ _⟩
  | _ => exact ⟨fun _ h => h, fun _ h => h⟩

theorem mem_modelTypes_of_mem_referencesOf {field : Field}
    (h : reference ∈ referencesOf record field) : reference.typeId ∈ field.kind.modelTypes := by
  unfold referencesOf at h
  split at h
  · obtain ⟨index, -, h⟩ := List.mem_flatMap.mp h
    obtain ⟨hkeys, hvalues⟩ := modelTypes_entryOrSelf_subset field.kind
    rcases List.mem_append.mp h with h | h
    · exact hkeys (mem_modelTypes_of_mem_referencesAt h)
    · exact hvalues (mem_modelTypes_of_mem_referencesAt h)
  · split at h
    · obtain ⟨index, -, h⟩ := List.mem_flatMap.mp h
      exact modelTypes_elementKind_subset field.kind (mem_modelTypes_of_mem_referencesAt h)
    · exact mem_modelTypes_of_mem_referencesAt h

/-- A reference leads to a type that the type of its record declares a field for. -/
theorem mentions_of_mem_references (h : reference ∈ references types typeId record) :
    Mentions types typeId reference.typeId := by
  unfold references at h
  cases hresolve : types.resolve typeId with
  | error error =>
      rw [hresolve] at h
      exact absurd h List.not_mem_nil
  | ok descriptor =>
      rw [hresolve] at h
      dsimp only at h
      split at h
      · obtain ⟨field, hfield, hreference⟩ := List.mem_flatMap.mp h
        exact ⟨descriptor, hresolve, field, (List.mem_filter.mp hfield).1,
          mem_modelTypes_of_mem_referencesOf hreference⟩
      · exact absurd h List.not_mem_nil

/-- A type is usable if it belongs to types that have instances and declare fields for models of one
another only. -/
theorem usable_of_closed {known : List String}
    (hknown : ∀ other ∈ known, ∃ descriptor blank, types.resolve other = .ok descriptor ∧
      types.blank descriptor = .ok blank ∧ ∀ field ∈ descriptor.fields,
        field.kind.modelTypes ⊆ known)
    (htype : typeId ∈ known) : Usable types typeId := by
  intro other hreach
  have hother : other ∈ known := by
    induction hreach with
    | refl => exact htype
    | tail _ hmentions ih =>
        obtain ⟨descriptor, hresolve, field, hfield, hmodel⟩ := hmentions
        obtain ⟨found, -, hfound, -, hclosed⟩ := hknown _ ih
        obtain rfl := Except.ok.inj (hfound.symm.trans hresolve)
        exact hclosed field hfield hmodel
  obtain ⟨descriptor, blank, hresolve, hblank, -⟩ := hknown other hother
  exact ⟨blank, by rw [TypeTable.instantiate, hresolve, ok_bind, hblank]⟩

/-! ## Requests and their faults -/

theorem firstFault?_eq_none_iff {oids : List String} :
    firstFault? fetch oids = none ↔ ∀ oid ∈ oids, ∃ child, fetch oid = .ok child := by
  rw [firstFault?, List.findSome?_eq_none_iff]
  refine forall₂_congr fun oid _ => ?_
  cases fetch oid <;> simp

theorem firstFault?_append (before after : List String) :
    firstFault? fetch (before ++ after) =
      (firstFault? fetch before).or (firstFault? fetch after) :=
  List.findSome?_append

theorem firstFault?_of_error {oid : String} {fault : StoreFault} (h : fetch oid = .error fault)
    (others : List String) : firstFault? fetch (oid :: others) = some fault := by
  simp [firstFault?, h]

theorem firstFault?_of_ok {oid : String} {child : Record} (h : fetch oid = .ok child)
    (others : List String) : firstFault? fetch (oid :: others) = firstFault? fetch others := by
  simp [firstFault?, h]

/-! ## What a result says of the requests -/

/-- What comes back from a reference has asked for nothing in vain. -/
theorem firstFault?_requestsVia {nested : Nested} {asked : String → Record → List String}
    (hnested : ∀ {typeId record found}, (nested typeId record).result = .ok found →
      firstFault? fetch (asked typeId record) = none)
    {found : Option Model} (h : follow nested fetch reference = .ok found) :
    firstFault? fetch (requestsVia fetch asked reference) = none := by
  cases hfetch : fetch reference.oid with
  | error fault =>
      rw [follow_of_error hfetch] at h
      cases h
  | ok child =>
      rw [follow_of_ok hfetch] at h
      rw [requestsVia, hfetch, firstFault?_of_ok hfetch]
      exact hnested h

theorem firstFault?_flatMap_eq_none {nested : Nested} {asked : String → Record → List String}
    (hnested : ∀ {typeId record found}, (nested typeId record).result = .ok found →
      firstFault? fetch (asked typeId record) = none)
    {references : List Reference}
    (h : ∀ reference ∈ references, ∃ found, follow nested fetch reference = .ok found) :
    firstFault? fetch (references.flatMap (requestsVia fetch asked)) = none := by
  rw [firstFault?_eq_none_iff]
  intro oid hoid
  obtain ⟨reference, hreference, hoid⟩ := List.mem_flatMap.mp hoid
  obtain ⟨found, hfound⟩ := h reference hreference
  exact firstFault?_eq_none_iff.mp (firstFault?_requestsVia hnested hfound) oid hoid

/-- Where there is a result, every request succeeded. -/
theorem fetched_of_result {found : Option Model}
    (h : (rebuildWithin types fetch depth typeId record).result = .ok found) :
    firstFault? fetch (requests types fetch depth typeId record) = none := by
  induction depth generalizing typeId record found with
  | zero => cases h
  | succ depth ih =>
      rcases result_rebuildWithin_succ types fetch typeId record with
        ⟨finish, hfinish⟩ | ⟨-, error, -, herror⟩
      · refine firstFault?_flatMap_eq_none ih fun reference hreference => ?_
        cases hfollow : (references types typeId record).mapM
            (follow (rebuildWithin types fetch depth) fetch) with
        | error fault =>
            rw [hfinish, hfollow] at h
            cases h
        | ok models => exact exists_of_mapM_eq_ok hfollow hreference
      · rw [herror] at h
        cases h

/-- Where a reference leads to an error, it is that of a type or of its first request that fails,
if this is so for what its record gives. -/
theorem fault_of_follow {nested : Nested} {asked : String → Record → List String} {error : Error}
    (hnested : ∀ {typeId record}, (nested typeId record).result = .error (.error error) →
      TypeFault types typeId error ∨
        ∃ fault, firstFault? fetch (asked typeId record) = some fault ∧ error = .store fault)
    (h : follow nested fetch reference = .error (.error error)) :
    TypeFault types reference.typeId error ∨
      ∃ fault, firstFault? fetch (requestsVia fetch asked reference) = some fault ∧
        error = .store fault := by
  rw [requestsVia]
  cases hfetch : fetch reference.oid with
  | error fault =>
      rw [follow_of_error hfetch] at h
      refine Or.inr ⟨fault, firstFault?_of_error hfetch _, ?_⟩
      exact (RebuildFault.error.inj (Except.error.inj h)).symm
  | ok child =>
      rw [follow_of_ok hfetch] at h
      rw [firstFault?_of_ok hfetch]
      exact hnested h

/-- Where there is an error, it is that of a type or of the first request that fails. -/
theorem fault_of_result {error : Error}
    (h : (rebuildWithin types fetch depth typeId record).result = .error (.error error)) :
    TypeFault types typeId error ∨
      ∃ fault, firstFault? fetch (requests types fetch depth typeId record) = some fault ∧
        error = .store fault := by
  induction depth generalizing typeId record with
  | zero => cases h
  | succ depth ih =>
      rcases result_rebuildWithin_succ types fetch typeId record with
        ⟨finish, hfinish⟩ | ⟨-, found, hinstantiate, herror⟩
      · have hfollow : (references types typeId record).mapM
            (follow (rebuildWithin types fetch depth) fetch) = .error (.error error) := by
          rw [hfinish] at h
          cases hall : (references types typeId record).mapM
              (follow (rebuildWithin types fetch depth) fetch) with
          | error fault => simpa [hall] using h
          | ok models => simp [hall] at h
        obtain ⟨before, reference, after, hsplit, hbefore, hreference⟩ :=
          mapM_eq_error_iff.mp hfollow
        rcases fault_of_follow ih hreference with
          ⟨other, hreach, hother⟩ | ⟨fault, hfault, hstore⟩
        · have hreferred : reference ∈ references types typeId record := by simp [hsplit]
          have hmentions := mentions_of_mem_references hreferred
          exact Or.inl ⟨other, ReflTransGen.head hmentions hreach, hother⟩
        · -- the requests before those of the reference have succeeded
          have hnone := firstFault?_flatMap_eq_none fetched_of_result hbefore
          refine Or.inr ⟨fault, ?_, hstore⟩
          rw [requests, hsplit, List.flatMap_append, List.flatMap_cons, firstFault?_append,
            firstFault?_append, hnone, hfault, Option.none_or, Option.some_or]
      · refine Or.inl ⟨typeId, .refl, ?_⟩
        rw [hinstantiate, RebuildFault.error.inj (Except.error.inj (herror depth |>.symm.trans h))]

/-- **Only types and requests end a rebuilding.**  A rebuilding that comes to an end fails, whatever
the record holds, only with the error of a type that its type leads to or with the fault of the
first request that fails.  If all these types are usable, it gives what there is where every
request succeeds, and fails with that fault, unchanged, where one does not. -/
theorem result_of_ends (types : TypeTable) (fetch : RecordFetch) (typeId : String)
    (record : Record) (depth : Nat)
    (hends : (rebuildWithin types fetch depth typeId record).result ≠ .error .tooDeep) :
    (∀ error, (rebuildWithin types fetch depth typeId record).result = .error (.error error) →
      TypeFault types typeId error ∨
        ∃ fault, firstFault? fetch (requests types fetch depth typeId record) = some fault ∧
          error = .store fault) ∧
    (Usable types typeId →
      ((∀ oid ∈ requests types fetch depth typeId record, ∃ child, fetch oid = .ok child) →
        ∃ found, (rebuildWithin types fetch depth typeId record).result = .ok found) ∧
      ∀ fault, firstFault? fetch (requests types fetch depth typeId record) = some fault →
        (rebuildWithin types fetch depth typeId record).result =
          .error (.error (.store fault))) := by
  refine ⟨fun error => fault_of_result, fun husable => ?_⟩
  cases hresult : (rebuildWithin types fetch depth typeId record).result with
  | ok found =>
      refine ⟨fun _ => ⟨found, rfl⟩, fun fault hfault => ?_⟩
      cases (fetched_of_result hresult).symm.trans hfault
  | error reason =>
      cases reason with
      | tooDeep => exact absurd hresult hends
      | error error =>
          rcases fault_of_result hresult with ⟨other, hreach, hother⟩ | ⟨first, hfirst, rfl⟩
          · obtain ⟨blank, hblank⟩ := husable other hreach
            cases hother.symm.trans hblank
          · refine ⟨fun hall => ?_, fun fault hfault => ?_⟩
            · cases (firstFault?_eq_none_iff.mpr hall).symm.trans hfirst
            · rw [Option.some.inj (hfirst.symm.trans hfault)]

/-! ### A shelf with books -/

namespace Shelf

def table : TypeTable := TypeTable.empty.insertAll
  [⟨"Person", some "name", [⟨"name", .string, true⟩]⟩,
    ⟨"Book", some "title", [⟨"title", .string, true⟩, ⟨"pages", .integer, true⟩,
      ⟨"author", .model "Person", true⟩]⟩,
    ⟨"Shelf", none, [⟨"books", .list (.model "Book"), true⟩, ⟨"owner", .model "Person", true⟩]⟩]

def shelf : Record := ⟨"shelf", [("books0", .string "iliad"), ("owner", .string "ann")], 0⟩

/-- The pages are not a number. -/
def iliad : Record :=
  ⟨"iliad", [("author", .string "homer"), ("pages", .string "many"), ("title", .string "Iliad")], 0⟩

def homer : Record := ⟨"homer", [("name", .string "Homer")], 0⟩

def ann : Record := ⟨"ann", [("name", .string "Ann")], 0⟩

/-- All records are there. -/
def complete : RecordSource := [iliad, homer, ann]

/-- One record is out of reach and another one is not there. -/
def partly : RecordFetch := fun oid =>
  if oid = "homer" then .error (.backend "out of reach") else RecordSource.fetch [iliad] oid

theorem usable : Usable table "Shelf" := by
  have htype : "Shelf" ∈ ["Shelf", "Book", "Person"] := List.mem_cons_self
  refine usable_of_closed (fun other hother => ?_) htype
  simp only [List.mem_cons, List.not_mem_nil, or_false] at hother
  rcases hother with rfl | rfl | rfl
  · exact ⟨_, _, rfl, rfl, by decide⟩
  · exact ⟨_, _, rfl, rfl, by decide⟩
  · exact ⟨_, _, rfl, rfl, by decide⟩

/-- The author of a book is asked for before the owner of the shelf. -/
theorem result_of_ends_shelf :
    requests table partly 3 "Shelf" shelf = ["iliad", "homer", "ann"] ∧
      (rebuildWithin table partly 3 "Shelf" shelf).result =
        .error (.error (.store (.backend "out of reach"))) ∧
      ∃ found, (rebuildWithin table complete 3 "Shelf" shelf).result = .ok found := by
  have hpartly : (rebuildWithin table partly 3 "Shelf" shelf).result ≠ .error .tooDeep := by
    decide +kernel
  have hcomplete : (rebuildWithin table complete 3 "Shelf" shelf).result ≠ .error .tooDeep := by
    decide +kernel
  refine ⟨by decide +kernel, ?_, ?_⟩
  · exact ((result_of_ends table partly "Shelf" shelf 3 hpartly).2 usable).2 _ (by decide +kernel)
  · refine ((result_of_ends table complete "Shelf" shelf 3 hcomplete).2 usable).1 ?_
    rw [← firstFault?_eq_none_iff]
    decide +kernel

end Shelf

end Rebuild

end Remodel
