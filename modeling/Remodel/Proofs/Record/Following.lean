import Mathlib.Data.List.Basic
import Remodel.Proofs.Trace
import Remodel.Record.Rebuild

/-!
# The references of a record

Rebuilding a model from a record asks for nested models: where a kind asks for a model and the
record has a text, the text is the id of another record.  Which references there are, and in which
order they are followed, depends on the record and its type only (`references`), and not on what
they lead to.  What is rebuilt depends on the nested models only, and the first reference that has
a fault ends the whole (`rebuildUsing_through`).

One lemma for each function of reading says so of it, from the value under one key to the whole
record; `Through.bind` puts them together.  For references that are followed to a depth, this is
one step of the depth (`result_rebuildWithin_succ`).
-/

namespace Remodel

namespace Rebuild

/-- A nested model that a record names: the id of its type, and that of its record. -/
structure Reference where
  typeId : String
  oid : String
  deriving Repr, DecidableEq

/-- The reference that stands under a key. -/
def referencesAt (record : Record) (key : String) (kind : Kind) : List Reference :=
  match kind, record.text? key with
  | .model typeId, some oid => [⟨typeId, oid⟩]
  | _, _ => []

/-- The references in the value of a field: keys before values, both in the order of indexes. -/
def referencesOf (record : Record) (field : Field) : List Reference :=
  if isStoredMap record field then
    (List.range (gaplessCount record (Record.entryKey field.name))).flatMap fun index =>
      referencesAt record (Record.entryKey field.name index) field.kind.entryOrSelf.1 ++
        referencesAt record (Record.entryValueKey field.name index) field.kind.entryOrSelf.2
  else if isStoredList record field then
    (List.range (gaplessCount record (Record.itemKey field.name))).flatMap fun index =>
      referencesAt record (Record.itemKey field.name index) field.kind.elementKind
  else referencesAt record field.name field.kind

/-- Whether a model of a type may be rebuilt from a record, as far as its tag says. -/
def fits (typeId : String) (record : Record) : Bool :=
  match record.modelType? with
  | some tagged => tagged = typeId
  | none => true

/-- The references in a record, in the order of the fields of a type. -/
def references (types : TypeTable) (typeId : String) (record : Record) : List Reference :=
  match types.resolve typeId with
  | .error _ => []
  | .ok descriptor =>
    if fits typeId record && (types.blank descriptor).isOk then
      descriptor.writableFields.flatMap (referencesOf record)
    else []

/-- Follows a reference: fetches its record and rebuilds its model. -/
def follow (nested : Nested) (fetch : RecordFetch) (reference : Reference) :
    Except RebuildFault (Option Model) := do
  let child ← (fetch reference.oid).mapError fun fault => .error (.store fault)
  (nested reference.typeId child).result

/-- A computation follows references in their order, up to the first fault, and depends on nothing
else of how nested models are rebuilt than on the models that they give. -/
def Through {α : Type} (fetch : RecordFetch) (references : List Reference)
    (computation : Nested → Except RebuildFault α) : Prop :=
  ∃ finish : List (Option Model) → α, ∀ nested,
    computation nested = finish <$> references.mapM (follow nested fetch)

variable {α β : Type} {fetch : RecordFetch} {record : Record}

/-! ## Computations that follow references -/

theorem Through.pure (a : α) : Through fetch [] fun _ => .ok a :=
  ⟨fun _ => a, fun _ => rfl⟩

theorem Through.congr {references : List Reference}
    {computation computation' : Nested → Except RebuildFault α}
    (h : Through fetch references computation)
    (heq : ∀ nested, computation' nested = computation nested) :
    Through fetch references computation' := by
  obtain ⟨finish, hfinish⟩ := h
  exact ⟨finish, fun nested => (heq nested).trans (hfinish nested)⟩

theorem Through.map {references : List Reference}
    {computation : Nested → Except RebuildFault α} (h : Through fetch references computation)
    (f : α → β) : Through fetch references fun nested => f <$> computation nested := by
  obtain ⟨finish, hfinish⟩ := h
  refine ⟨f ∘ finish, fun nested => ?_⟩
  dsimp only
  rw [hfinish]
  cases references.mapM (follow nested fetch) <;> rfl

/-- One computation after another follows the references of both. -/
theorem Through.bind {first second : List Reference}
    {computation : Nested → Except RebuildFault α}
    {next : α → Nested → Except RebuildFault β} (h : Through fetch first computation)
    (hnext : ∀ a, Through fetch second (next a)) :
    Through fetch (first ++ second) fun nested =>
      computation nested >>= fun a => next a nested := by
  obtain ⟨finish, hfinish⟩ := h
  choose finishNext hfinishNext using hnext
  refine ⟨fun models => finishNext (finish (models.take first.length)) (models.drop first.length),
    fun nested => ?_⟩
  dsimp only
  rw [hfinish, List.mapM_append]
  cases hfirst : first.mapM (follow nested fetch) with
  | error fault => rfl
  | ok models =>
      have hlength := length_of_mapM hfirst
      rw [map_ok, ok_bind, ok_bind, hfinishNext]
      cases second.mapM (follow nested fetch) with
      | error fault => rfl
      | ok others => simp [← hlength]

/-! ## Reading a record -/

theorem result_readFile (record : Record) (key : String) (scalar : Scalar) :
    ∃ value, (readFile record key scalar).result = .ok value := by
  unfold readFile
  cases scalar.text? with
  | none => exact ⟨none, rfl⟩
  | some encoded =>
      dsimp only
      cases FileContent.decode? ((record.text? (Record.fileNameKey key)).getD "") encoded with
      | none => exact ⟨none, rfl⟩
      | some file => exact ⟨some (.file file), rfl⟩

theorem result_readModel (nested : Nested) (fetch : RecordFetch) (key typeId oid : String)
    {scalar : Scalar} (htext : scalar.text? = some oid) :
    (readModel nested fetch key typeId scalar).result =
      Option.map Value.model <$> follow nested fetch ⟨typeId, oid⟩ := by
  unfold readModel follow
  rw [htext]
  dsimp only
  cases hfetch : fetch oid with
  | error fault => rfl
  | ok child =>
      cases hnested : (nested typeId child).result with
      | error fault => simp [Rebuilding.lift, hnested]
      | ok model => simp [Rebuilding.lift, hnested]

theorem readAt_through (key : String) (kind : Kind) :
    Through fetch (referencesAt record key kind)
      fun nested => (readAt nested fetch record key kind).result := by
  cases hget : record.get? key with
  | none =>
      have hnone : referencesAt record key kind = [] := by
        unfold referencesAt Record.text?
        rw [hget]
        cases kind <;> rfl
      rw [hnone]
      exact (Through.pure none).congr fun nested => by rw [readAt, hget]; rfl
  | some scalar =>
      have htext : record.text? key = scalar.text? := by rw [Record.text?, hget]; rfl
      cases kind with
      | model typeId =>
          unfold referencesAt
          rw [htext]
          cases hoid : scalar.text? with
          | none =>
              exact (Through.pure none).congr fun nested => by
                unfold readAt
                rw [hget]
                dsimp only
                rw [readModel, hoid]
                rfl
          | some oid =>
              refine ⟨fun models => (models.head?.getD none).map Value.model, fun nested => ?_⟩
              unfold readAt
              rw [hget]
              dsimp only
              rw [result_readModel nested fetch key typeId oid hoid, List.mapM_cons, List.mapM_nil]
              cases follow nested fetch ⟨typeId, oid⟩ <;> rfl
      | file =>
          obtain ⟨value, hvalue⟩ := result_readFile record key scalar
          exact (Through.pure value).congr fun nested => by
            unfold readAt
            rw [hget]
            exact hvalue
      | _ =>
          exact (Through.pure (some scalar.toValue)).congr fun nested => by
            unfold readAt
            rw [hget]
            rfl

theorem readItems_through (key : String) (kind : Kind) (indexes : List Nat) :
    Through fetch
      (indexes.flatMap fun index => referencesAt record (Record.itemKey key index) kind)
      fun nested => (readItems nested fetch record key kind indexes).result := by
  induction indexes with
  | nil => exact Through.pure []
  | cons index rest ih =>
      rw [List.flatMap_cons]
      refine ((readAt_through _ kind).bind fun value =>
        ih.map fun items => value.toList ++ items).congr fun nested => ?_
      rw [readItems, Attempt.result_bind]
      congr 1
      funext value
      cases value with
      | none =>
          dsimp only
          cases (readItems nested fetch record key kind rest).result <;> rfl
      | some item =>
          dsimp only
          rw [Attempt.result_bind]
          cases (readItems nested fetch record key kind rest).result <;> rfl

theorem readEntries_through (key : String) (kinds : Kind × Kind) (indexes : List Nat) :
    Through fetch
      (indexes.flatMap fun index => referencesAt record (Record.entryKey key index) kinds.1 ++
        referencesAt record (Record.entryValueKey key index) kinds.2)
      fun nested => (readEntries nested fetch record key kinds indexes).result := by
  induction indexes with
  | nil => exact Through.pure []
  | cons index rest ih =>
      rw [List.flatMap_cons, List.append_assoc]
      refine ((readAt_through _ kinds.1).bind fun k => (readAt_through _ kinds.2).bind fun v =>
        ih.map fun entries => (k.bind fun k => v.map fun v => (k, v)).toList ++ entries).congr
          fun nested => ?_
      rw [readEntries, Attempt.result_bind]
      congr 1
      funext k
      rw [Attempt.result_bind]
      congr 1
      funext v
      cases k with
      | none =>
          dsimp only
          rw [Attempt.result_bind, Attempt.result_note, ok_bind]
          cases (readEntries nested fetch record key kinds rest).result <;> rfl
      | some k =>
          cases v with
          | none =>
              dsimp only
              rw [Attempt.result_bind, Attempt.result_note, ok_bind]
              cases (readEntries nested fetch record key kinds rest).result <;> rfl
          | some v =>
              dsimp only
              rw [Attempt.result_bind]
              cases (readEntries nested fetch record key kinds rest).result <;> rfl

theorem readStored_through (field : Field) : Through fetch (referencesOf record field)
    fun nested => (readStored nested fetch record field).result := by
  unfold referencesOf readStored
  split
  · exact ((readEntries_through field.name field.kind.entryOrSelf _).map fun entries =>
      some (Value.map entries)).congr fun nested => by
        rw [Attempt.result_bind]
        cases (readEntries nested fetch record field.name field.kind.entryOrSelf _).result <;> rfl
  · split
    · exact ((readItems_through field.name field.kind.elementKind _).map fun items =>
        some (Value.list items)).congr fun nested => by
          rw [Attempt.result_bind]
          cases (readItems nested fetch record field.name field.kind.elementKind _).result <;> rfl
    · exact readAt_through field.name field.kind

theorem readFields_through (fields : List Field) (model : Model) (assigned : Nat) :
    Through fetch (fields.flatMap (referencesOf record))
      fun nested => (readFields nested fetch record fields model assigned).result := by
  induction fields generalizing model assigned with
  | nil => exact Through.pure (model, assigned)
  | cons field rest ih =>
      rw [List.flatMap_cons]
      -- what a field gives decides how the others go on, and not which references they have
      have hnext : ∀ value : Option Value, Through fetch (rest.flatMap (referencesOf record))
          fun nested => (((value.bind fun found => (assign model field found).toOption).elim
            (readFields nested fetch record rest model assigned) fun model =>
              readFields nested fetch record rest model (assigned + 1))).result := by
        intro value
        cases value.bind fun found => (assign model field found).toOption with
        | none => exact ih model assigned
        | some model => exact ih model (assigned + 1)
      refine ((readStored_through field).bind hnext).congr fun nested => ?_
      rw [readFields, Attempt.result_bind]
      congr 1
      funext value
      cases value with
      | none => rfl
      | some value =>
          dsimp only [Option.bind_some]
          cases assign model field value with
          | ok model => rfl
          | error message =>
              dsimp only
              rw [Attempt.result_bind, Attempt.result_note, ok_bind]
              rfl

theorem result_rebuildUsing_of_resolve {types : TypeTable} {typeId : String}
    {descriptor : Descriptor} (hresolve : types.resolve typeId = .ok descriptor)
    (nested : Nested) (fetch : RecordFetch) (record : Record) :
    (rebuildUsing nested types fetch typeId record).result =
      if fits typeId record then do
        let model ← (types.blank descriptor).mapError RebuildFault.error
        let (model, assigned) ←
          (readFields nested fetch record descriptor.writableFields model 0).result
        return if assigned = 0 then none else some model
      else .ok none := by
  have hlift : ∀ {γ : Type} (result : Except Error γ),
      (Rebuilding.lift result).result = result.mapError RebuildFault.error :=
    fun result => by cases result <;> rfl
  unfold rebuildUsing fits
  rw [Attempt.result_bind, hlift, hresolve, mapError_ok, ok_bind]
  cases record.modelType? with
  | none => simp [hlift]
  | some tagged =>
      by_cases htagged : tagged = typeId
      · simp [htagged, hlift]
      · simp [htagged]

/-- Rebuilding a model from a record follows the references of the record, unless its type is not
known or has no instances. -/
theorem rebuildUsing_through (types : TypeTable) (fetch : RecordFetch) (typeId : String)
    (record : Record) :
    Through fetch (references types typeId record)
        (fun nested => (rebuildUsing nested types fetch typeId record).result) ∨
      references types typeId record = [] ∧ ∃ error, types.instantiate typeId = .error error ∧
        ∀ nested, (rebuildUsing nested types fetch typeId record).result =
          .error (.error error) := by
  cases hresolve : types.resolve typeId with
  | error error =>
      refine Or.inr ⟨by simp [references, hresolve], error,
        by simp [TypeTable.instantiate, hresolve], fun nested => ?_⟩
      rw [rebuildUsing, hresolve, Attempt.result_bind]
      rfl
  | ok descriptor =>
      have hresult := fun nested =>
        result_rebuildUsing_of_resolve hresolve nested fetch record
      cases hfits : fits typeId record with
      | false =>
          have hnone : references types typeId record = [] := by
            simp [references, hresolve, hfits]
          simp only [hfits] at hresult
          rw [hnone]
          exact Or.inl ((Through.pure none).congr hresult)
      | true =>
          cases hblank : types.blank descriptor with
          | error error =>
              simp only [hfits, hblank] at hresult
              exact Or.inr ⟨by simp [references, hresolve, hblank, Except.isOk, Except.toBool],
                error, by simp [TypeTable.instantiate, hresolve, hblank], hresult⟩
          | ok model =>
              have hall : references types typeId record =
                  descriptor.writableFields.flatMap (referencesOf record) := by
                simp [references, hresolve, hfits, hblank, Except.isOk, Except.toBool]
              simp only [hfits, hblank] at hresult
              rw [hall]
              exact Or.inl (((readFields_through descriptor.writableFields model 0).map
                fun read => if read.2 = 0 then none else some read.1).congr hresult)

/-! ## One step deeper -/

/-- A reference is followed by fetching its record and then by what is done with that. -/
theorem follow_of_ok {reference : Reference} {child : Record}
    (h : fetch reference.oid = .ok child) (nested : Nested) :
    follow nested fetch reference = (nested reference.typeId child).result := by
  rw [follow, h]
  rfl

theorem follow_of_error {reference : Reference} {fault : StoreFault}
    (h : fetch reference.oid = .error fault) (nested : Nested) :
    follow nested fetch reference = .error (.error (.store fault)) := by
  rw [follow, h]
  rfl

/-- Rebuilding a model to one more depth follows the references of its record, and makes of what
they give the same whatever the depth is. -/
theorem result_rebuildWithin_succ (types : TypeTable) (fetch : RecordFetch) (typeId : String)
    (record : Record) :
    (∃ finish : List (Option Model) → Option Model, ∀ depth,
      (rebuildWithin types fetch (depth + 1) typeId record).result =
        finish <$> (references types typeId record).mapM
          (follow (rebuildWithin types fetch depth) fetch)) ∨
      references types typeId record = [] ∧ ∃ error, types.instantiate typeId = .error error ∧
        ∀ depth, (rebuildWithin types fetch (depth + 1) typeId record).result =
          .error (.error error) := by
  rcases rebuildUsing_through types fetch typeId record with
    ⟨finish, hfinish⟩ | ⟨hnone, error, hinstantiate, herror⟩
  · exact Or.inl ⟨finish, fun depth => hfinish (rebuildWithin types fetch depth)⟩
  · exact Or.inr ⟨hnone, error, hinstantiate,
      fun depth => herror (rebuildWithin types fetch depth)⟩

end Rebuild

end Remodel
