import Remodel.Proofs.Record.Carrying
import Remodel.Record.Flatten

/-!
# What one step of flattening does

A step writes under some keys of a record and adds further records.  It leaves the other keys
alone, and afterwards the record carries what the step wrote (`Writes`).  Steps that write under
different keys do so one after the other (`Writes.append`).

An instance may be met again while it is being written: then it stands for a model that contains
the present one.  The invariant is therefore about instances smaller than a bound (`Settled`),
which no model being written is.
-/

namespace Remodel

open Record Value

/-! ## Running a step without its notices -/

namespace Flattening

variable {α β : Type}

/-- The result of a step and the state after it. -/
def exec (step : Flattening α) (state : FlattenState) : α × FlattenState := (step.run state).value

@[simp] theorem exec_pure (a : α) (state : FlattenState) :
    exec (pure a) state = (a, state) := rfl

@[simp] theorem exec_bind (step : Flattening α) (next : α → Flattening β) (state : FlattenState) :
    exec (step >>= next) state = exec (next (exec step state).1) (exec step state).2 := rfl

@[simp] theorem exec_note (notice : Notice) (state : FlattenState) :
    exec (Traced.note notice : Flattening Unit) state = ((), state) := rfl

@[simp] theorem exec_writtenOid? (label : Option Nat) (state : FlattenState) :
    exec (writtenOid? label) state = (label.bind (state.seen.lookup ·), state) := rfl

@[simp] theorem exec_emit (record : Record) (state : FlattenState) :
    exec (emit record) state = ((), { state with records := state.records ++ [record] }) := rfl

theorem records_makeOid (context : FlattenContext) (id : Option String) (state : FlattenState) :
    (exec (makeOid context id) state).2.records = state.records := by
  cases id <;> rfl

theorem seen_makeOid (context : FlattenContext) (id : Option String) (state : FlattenState) :
    (exec (makeOid context id) state).2.seen = state.seen := by
  cases id <;> rfl

theorem records_noteOid (label : Option Nat) (oid : String) (state : FlattenState) :
    (exec (noteOid label oid) state).2.records = state.records := by
  cases label <;> rfl

end Flattening

open Flattening

/-! ## States -/

variable (good : List Record → String → Model → Prop) (meaning : Nat → Model)

/-- Every instance smaller than the bound that has been seen has a record that is good. -/
def Settled (bound : Nat) (state : FlattenState) : Prop :=
  ∀ label oid, state.seen.lookup label = some oid → sizeOf (meaning label) < bound →
    good state.records oid (meaning label)

/-- Records have been added, and every instance that has been seen since has a good one. -/
structure Grows (before after : FlattenState) : Prop where
  records : before.records <+: after.records
  seen : ∀ label oid, after.seen.lookup label = some oid →
    before.seen.lookup label = some oid ∨ good after.records oid (meaning label)

/-- Something has been written under some keys of a record, and nothing under others. -/
structure Writes (keys : List String) (carried : (String → Model → Prop) → Record → Prop)
    (before after : Record × FlattenState) : Prop where
  grows : Grows good meaning before.2 after.2
  oid : after.1.oid = before.1.oid
  other : ∀ name, name ∉ keys → after.1.get? name = before.1.get? name
  carries : carried (good after.2.records) after.1

/-- A value has been written under a key of a record. -/
abbrev WritesValue (key : String) (value : Value) (before after : Record × FlattenState) : Prop :=
  Writes good meaning (value.ownKeys key) (fun good record => Carries good record key value)
    before after

variable {good meaning}

theorem Settled.anti {small large : Nat} {state : FlattenState}
    (h : Settled good meaning large state) (hle : small ≤ large) :
    Settled good meaning small state :=
  fun label oid hseen hsize => h label oid hseen (hsize.trans_le hle)

theorem Grows.refl (state : FlattenState) : Grows good meaning state state :=
  ⟨List.prefix_rfl, fun _ _ h => Or.inl h⟩

theorem Grows.trans (lasting : Lasting good) {a b c : FlattenState}
    (hab : Grows good meaning a b) (hbc : Grows good meaning b c) : Grows good meaning a c where
  records := hab.records.trans hbc.records
  seen label oid h := by
    rcases hbc.seen label oid h with h | h
    · rcases hab.seen label oid h with h | h
      · exact Or.inl h
      · exact Or.inr (lasting.mono hbc.records h)
    · exact Or.inr h

theorem Settled.of_grows (lasting : Lasting good) {bound : Nat} {before after : FlattenState}
    (h : Settled good meaning bound before) (hgrows : Grows good meaning before after) :
    Settled good meaning bound after := by
  intro label oid hseen hsize
  rcases hgrows.seen label oid hseen with hold | hgood
  · exact lasting.mono hgrows.records (h label oid hold hsize)
  · exact hgood

/-- What is carried stays carried by a record that agrees on the keys. -/
def Stable (keys : List String) (carried : (String → Model → Prop) → Record → Prop) : Prop :=
  ∀ (good better : String → Model → Prop) (record other : Record),
    carried good record → (∀ oid m, good oid m → better oid m) →
    (∀ name ∈ keys, other.get? name = record.get? name) → carried better other

/-- Writing one thing after another, under other keys, carries both. -/
theorem Writes.append (lasting : Lasting good) {keys more : List String}
    {first second : (String → Model → Prop) → Record → Prop}
    {a b c : Record × FlattenState} (hfirst : Writes good meaning keys first a b)
    (hsecond : Writes good meaning more second b c) (hstable : Stable keys first)
    (hdisjoint : ∀ name ∈ keys, name ∉ more) :
    Writes good meaning (keys ++ more) (fun good record => first good record ∧ second good record)
      a c where
  grows := hfirst.grows.trans lasting hsecond.grows
  oid := hsecond.oid.trans hfirst.oid
  other name hname := by
    rw [List.mem_append, not_or] at hname
    rw [hsecond.other name hname.2, hfirst.other name hname.1]
  carries := by
    refine ⟨hstable _ _ _ _ hfirst.carries (fun _ _ => lasting.mono hsecond.grows.records)
      fun name hname => ?_, hsecond.carries⟩
    exact hsecond.other name (hdisjoint name hname)

theorem Writes.of_scalar {key : String} {value : Value} {scalar : Scalar} (record : Record)
    (state : FlattenState) (hplain : value.plainKeys key = [key])
    (hcollection : value.isCollection = false)
    (hcarries : CarriesPlain (good state.records) (record.put key scalar) key value) :
    WritesValue good meaning key value (record, state) (record.put key scalar, state) where
  grows := Grows.refl state
  oid := rfl
  other name hname := by
    rw [ownKeys_of_plain hcollection, hplain, List.mem_singleton] at hname
    exact get?_put_of_ne record scalar hname
  carries := by rwa [carries_of_plain hcollection]

/-- The record of a nested model is written first, and then its id under the key. -/
theorem Writes.of_model {key oid : String} {model : Model} (record : Record)
    {before after : FlattenState} (hgrows : Grows good meaning before after)
    (hgood : good after.records oid model) :
    WritesValue good meaning key (.model model) (record, before)
      (record.put key (.string oid), after) where
  grows := hgrows
  oid := rfl
  other name hname := by
    have hne : name ∉ [key] := hname
    exact get?_put_of_ne record _ (List.ne_of_not_mem_cons hne)
  carries := ⟨oid, get?_put_self record key _, hgood⟩

theorem Writes.of_file {key : String} (file : FileContent) (record : Record)
    (state : FlattenState) :
    WritesValue good meaning key (.file file) (record, state)
      ((record.put key (.string file.encoded)).put (fileNameKey key) (.string file.name),
        state) where
  grows := Grows.refl state
  oid := rfl
  other name hname := by
    have hne : name ∉ [key, fileNameKey key] := hname
    simp only [List.mem_cons, List.not_mem_nil, or_false, not_or] at hne
    change ((record.put key _).put (fileNameKey key) _).get? name = _
    rw [get?_put_of_ne _ _ hne.2, get?_put_of_ne _ _ hne.1]
  carries := by
    refine ⟨?_, get?_put_self _ _ _⟩
    -- the name is written after the content, and under a longer key
    change ((record.put key _).put (fileNameKey key) _).get? key = _
    rw [get?_put_of_ne _ _ (ne_fileNameKey key), get?_put_self]

/-- Writing a value that is no list or map. -/
theorem Writes.plain {key : String} {value : Value} {before after : Record × FlattenState}
    (h : WritesValue good meaning key value before after) (hplain : value.isCollection = false) :
    Writes good meaning (value.plainKeys key)
      (fun good record => CarriesPlain good record key value) before after := by
  have hkeys := ownKeys_of_plain hplain key
  exact ⟨h.grows, h.oid, fun name hname => h.other name (by rwa [hkeys]), by
    rw [← carries_of_plain hplain]
    exact h.carries⟩

end Remodel
