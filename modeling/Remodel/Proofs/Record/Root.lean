import Remodel.Proofs.Record.Emitted
import Remodel.Proofs.Record.Keys

/-!
# Finding the record of the root

The record of the root is looked for from the front, by its id, and those of nested instances come
first.  Ids of records are made of the models' own ids or of drawn ones, and the drawn ones are all
different.  So what is found is the record of the root unless a nested instance has the same id of
its own (`Namesake`), and then it is the record of such an instance.
-/

namespace Remodel

open Record

/-- A nested instance with the id of the root. -/
structure Namesake (root : Model) (handle : Handle) (nested : Model) : Prop where
  reached : Reaches root handle nested
  ne_root : handle ≠ .root root
  sameId : ∃ id, nested.id? = some id ∧ root.id? = some id

section Root

variable {context : FlattenContext} {model : Model}

/-- A nested instance has the record id of the root exactly if both models have the same id of their
own. -/
theorem oid_eq_iff (hdrawn : Function.Injective context.drawnId)
    (hown : ∀ nested ∈ occurrences model, ∀ n, nested.id? ≠ some (context.drawnId n))
    {nested : Model} (hnested : nested ∈ occurrences model) {n : Nat}
    (hn : (if model.id? = none then 1 else 0) ≤ n) :
    context.identity.oid (nested.id?.getD (context.drawnId n)) =
        context.identity.oid (model.id?.getD (context.drawnId 0)) ↔
      ∃ id, nested.id? = some id ∧ model.id? = some id := by
  rw [context.identity.oid_injective.eq_iff]
  cases hid : nested.id? with
  | some id =>
      cases hroot : model.id? with
      | some other => simp [eq_comm]
      | none =>
          -- an id of a model's own is not a drawn one
          have hne : id ≠ context.drawnId 0 := fun heq => hown nested hnested 0 (heq ▸ hid)
          simpa using hne
  | none =>
      cases hroot : model.id? with
      | some other =>
          have hne : context.drawnId n ≠ other := fun heq =>
            hown model (self_mem_occurrences model) n (heq ▸ hroot)
          simpa using hne
      | none =>
          -- both ids are drawn, and the root's before the other
          rw [hroot, if_pos rfl] at hn
          have hne : context.drawnId n ≠ context.drawnId 0 := fun heq => by
            have hzero := hdrawn heq
            omega
          simpa using hne

/-- The nested instances with the record id of the root are its namesakes. -/
theorem Accounts.namesake_iff {nested : List Emission} {state : FlattenState}
    (h : Accounts context model (nested ++ [⟨.root model, model,
      context.identity.oid (model.id?.getD (context.drawnId 0))⟩]) state)
    (hdrawn : Function.Injective context.drawnId)
    (hown : ∀ nested ∈ occurrences model, ∀ n, nested.id? ≠ some (context.drawnId n))
    {emission : Emission} (hemission : emission ∈ nested) {n : Nat}
    (hn : (if model.id? = none then 1 else 0) ≤ n)
    (hid : emission.IdOf context n) :
    emission.oid = context.identity.oid (model.id?.getD (context.drawnId 0)) ↔
      Namesake model emission.handle emission.model := by
  have hreached := h.reached emission (List.mem_append_left _ hemission)
  rw [Emission.IdOf] at hid
  rw [hid, oid_eq_iff hdrawn hown (mem_occurrences_iff.mpr ⟨_, hreached⟩) hn]
  refine ⟨fun hsame => ⟨hreached, fun hroot => ?_, hsame⟩, fun hnamesake => hnamesake.sameId⟩
  -- the root is in the list once, at the end
  have honce := h.once
  rw [List.map_append, List.nodup_append] at honce
  exact honce.2.2 _ (List.mem_map_of_mem hemission) _ (List.mem_singleton_self _) hroot

end Root

/-- The last record is found under its id unless an earlier one has the same id. -/
theorem root?_concat (records : List Record) (own : Record) :
    (⟨own.oid, records ++ [own]⟩ : FlatModel).root? =
      some ((records.find? fun record => record.oid = own.oid).getD own) := by
  rw [FlatModel.root?, List.find?_append]
  cases records.find? fun record => record.oid = own.oid <;> simp

/-- **Which record is found.**  Where no nested instance has the id of the root, the record that is
found is the root's own; otherwise it is that of a nested instance with the same id.  The ids that
are drawn have to be different from one another and from the ids of models. -/
theorem root?_flatten (context : FlattenContext) {model : Model} (hcoherent : model.Coherent)
    (hdrawn : Function.Injective context.drawnId)
    (hown : ∀ nested ∈ occurrences model, ∀ n, nested.id? ≠ some (context.drawnId n)) :
    ∃ oidOf emitted,
      Emitted context model oidOf emitted (model.flatten context).value ∧
      ((∀ handle nested, ¬ Namesake model handle nested) →
        (model.flatten context).value.root? =
          some (model.recordWith context.identity oidOf (.root model))) ∧
      ((∃ handle nested, Namesake model handle nested) →
        ∃ handle nested, Namesake model handle nested ∧
          (model.flatten context).value.root? =
            some (nested.recordWith context.identity oidOf handle)) := by
  obtain ⟨nested, oid, state, place, hflat, hadds, rfl, hnested⟩ :=
    exists_emissions context hcoherent
  have haccounts := hadds.accounts
  rw [List.nil_append] at haccounts
  obtain ⟨oidOf, hnames⟩ := exists_names haccounts.once
  have hemitted := hadds.emitted_root hnames
  set own := model.recordWith context.identity oidOf (.root model)
  have hsame : ∀ emission ∈ nested, (emission.record context.identity oidOf).oid = own.oid ↔
      Namesake model emission.handle emission.model := by
    intro emission hemission
    obtain ⟨n, hn, hid⟩ := hnested emission hemission
    rw [← haccounts.namesake_iff hdrawn hown hemission hn hid, ← hemitted.rootOid,
      Emission.record, oid_recordWith, hnames emission (List.mem_append_left _ hemission)]
  have hroot : (model.flatten context).value.root? = some (((nested.map
      (Emission.record context.identity oidOf)).find?
        fun record => record.oid = own.oid).getD own) := by
    have hownOid : context.identity.oid (model.id?.getD (context.drawnId 0)) = own.oid :=
      hemitted.rootOid
    rw [hflat, haccounts.records oidOf hnames, List.map_append, hownOid]
    exact root?_concat _ own
  refine ⟨oidOf, _, hflat ▸ hemitted, fun hnone => ?_, fun hsome => ?_⟩
  · have hfind : (nested.map (Emission.record context.identity oidOf)).find?
        (fun record => record.oid = own.oid) = none := by
      rw [List.find?_eq_none]
      intro record hrecord hoid
      obtain ⟨emission, hemission, rfl⟩ := List.mem_map.mp hrecord
      exact hnone _ _ ((hsame emission hemission).mp (of_decide_eq_true hoid))
    rw [hroot, hfind, Option.getD_none]
  · obtain ⟨handle, other, hother⟩ := hsome
    have hmem := (hemitted.instances handle other).mpr hother.reached
    rw [List.mem_append, List.mem_singleton] at hmem
    obtain ⟨emission, hemission, hentry⟩ :=
      List.mem_map.mp (hmem.resolve_right fun heq => hother.ne_root (congrArg Prod.fst heq))
    cases hentry
    cases hfind : (nested.map (Emission.record context.identity oidOf)).find?
        fun record => record.oid = own.oid with
    | none =>
        have hoid := (hsame emission hemission).mpr hother
        exact absurd (decide_eq_true hoid)
          (List.find?_eq_none.mp hfind _ (List.mem_map_of_mem hemission))
    | some record =>
        obtain ⟨found, hfound, rfl⟩ := List.mem_map.mp (List.mem_of_find?_eq_some hfind)
        have hoid : (found.record context.identity oidOf).oid = own.oid := by
          simpa using List.find?_some hfind
        refine ⟨_, _, (hsame found hfound).mp hoid, ?_⟩
        rw [hroot, hfind]
        rfl

/-! ## A holder and a pass with one number -/

namespace Pass

def pass : Descriptor := ⟨"Pass", some "number", [⟨"number", .string, true⟩]⟩

def holder : Descriptor :=
  ⟨"Holder", some "name", [⟨"name", .string, true⟩, ⟨"pass", .model "Pass", true⟩]⟩

def context : FlattenContext := ⟨⟨"example.org", "passes", "main"⟩, itemKey "drawn"⟩

def seven : Model := ⟨pass, [("number", .string "7")], some 0⟩

/-- A holder of the pass with the number seven. -/
def named (name : String) : Model :=
  ⟨holder, [("name", .string name), ("pass", .model seven)], none⟩

theorem occurrences_named (name : String) : occurrences (named name) = [seven, named name] := rfl

theorem coherent_named (name : String) : (named name).Coherent := by
  unfold Model.Coherent
  rw [occurrences_named]
  simp [seven, named]

/-- Drawn ids begin with a letter that other ids do not begin with. -/
theorem id?_ne_drawn {name : String} (hname : name.toList.head? ≠ some 'd') :
    ∀ nested ∈ occurrences (named name), ∀ n, nested.id? ≠ some (context.drawnId n) := by
  have hdrawn : ∀ n, (context.drawnId n).toList.head? = some 'd' := fun n => by
    rw [context, toList_itemKey]
    rfl
  intro nested hnested n hid
  rw [occurrences_named] at hnested
  rcases List.mem_cons.mp hnested with rfl | hnested
  · have hseven : "7" = context.drawnId n := Option.some.inj hid
    have hhead := hdrawn n
    rw [← hseven] at hhead
    exact absurd hhead (by decide)
  · rw [List.mem_singleton.mp hnested] at hid
    have hsame : name = context.drawnId n := Option.some.inj hid
    exact hname (hsame ▸ hdrawn n)

/-- The holder Ann has no namesake, so her record is found. -/
theorem root?_flatten_ann : ∃ oidOf,
    ((named "Ann").flatten context).value.root? =
      some ((named "Ann").recordWith context.identity oidOf (.root (named "Ann"))) := by
  obtain ⟨oidOf, emitted, hemitted, hfound, -⟩ := root?_flatten context (coherent_named "Ann")
    (itemKey_injective "drawn") (id?_ne_drawn (by decide))
  refine ⟨oidOf, hfound fun handle nested hnamesake => ?_⟩
  have hsize := hnamesake.reached.sizeOf_lt hnamesake.ne_root
  obtain ⟨id, hnested, hroot⟩ := hnamesake.sameId
  have hmem := mem_occurrences_iff.mpr ⟨handle, hnamesake.reached⟩
  rw [occurrences_named] at hmem
  rcases List.mem_cons.mp hmem with rfl | hmem
  · have hids : "7" = "Ann" := Option.some.inj (hnested.trans hroot.symm)
    exact absurd hids (by decide)
  · rw [List.mem_singleton.mp hmem] at hsize
    exact Nat.lt_irrefl _ hsize

/-- The holder with the name seven has the id of its pass.  What is found is the record of the pass,
and not the last record, which is the one of the holder. -/
theorem root?_flatten_seven :
    let flat := ((named "7").flatten context).value
    (named "7").typeId = "Holder" ∧
      flat.records.map (fun record => (record.oid, record.modelType?)) =
        [("example.org/passes/7", some "Pass"), ("example.org/passes/7", some "Holder")] ∧
      flat.root?.bind Record.modelType? = some "Pass" ∧ flat.root? ≠ flat.records.getLast? := by
  decide

end Pass

end Remodel
