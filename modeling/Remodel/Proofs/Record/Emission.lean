import Mathlib.Data.List.Nodup
import Mathlib.Logic.Function.Basic
import Remodel.Proofs.Record.Instances

/-!
# The instances written so far

While a model is flattened, one record after another is added.  This file ties them to the instances
they are of: a run is followed together with the list of the instances that have been written
(`Emission`), and at every moment the records are those of the list, no instance is in the list
twice, and what an instance refers to comes before it (`Accounts`).  An instance is added to the
list when its record is, so the only step is one at the end of the list (`Accounts.concat`).

What a part of the run adds is told apart from what other parts add (`Adds`): it either has a label
that was not seen before, or is reached without meeting a label in this part of the model.  The
numbers of the ids that it draws are those from its beginning to its end.
-/

namespace Remodel

open Record Put

/-- An instance for which a record has been added, with the id of the record. -/
structure Emission where
  handle : Handle
  model : Model
  oid : String

/-- The ids of records are those with which the instances have been written. -/
def Names (oidOf : Handle → String) (emitted : List Emission) : Prop :=
  ∀ emission ∈ emitted, oidOf emission.handle = emission.oid

/-- The record of an instance that has been written. -/
def Emission.record (identity : Identity) (oidOf : Handle → String) (emission : Emission) :
    Record :=
  emission.model.recordWith identity oidOf emission.handle

theorem Names.left {oidOf : Handle → String} {emitted added : List Emission}
    (h : Names oidOf (emitted ++ added)) : Names oidOf emitted :=
  fun emission hemission => h emission (List.mem_append_left added hemission)

/-- There are ids that name every instance, if none is there twice. -/
theorem exists_names {emitted : List Emission} (h : (emitted.map Emission.handle).Nodup) :
    ∃ oidOf, Names oidOf emitted := by
  classical
  induction emitted with
  | nil => exact ⟨fun _ => "", List.forall_mem_nil _⟩
  | cons first rest ih =>
      rw [List.map_cons, List.nodup_cons] at h
      obtain ⟨oidOf, hnames⟩ := ih h.2
      refine ⟨Function.update oidOf first.handle first.oid, fun emission hemission => ?_⟩
      rcases List.mem_cons.mp hemission with rfl | hrest
      · exact Function.update_self ..
      · have hne : emission.handle ≠ first.handle := fun heq =>
          h.1 (heq ▸ List.mem_map_of_mem hrest)
        rw [Function.update_of_ne hne]
        exact hnames emission hrest

/-! ## Ids -/

theorem Identity.oid_injective (identity : Identity) : Function.Injective identity.oid := by
  intro a b h
  have hlist := congrArg String.toList h
  simp only [Identity.oid, String.toList_append, List.append_cancel_left_eq] at hlist
  exact String.toList_inj.mp hlist

/-- The id of the record is made of the model's own id, or of the drawn one with a number. -/
def Emission.IdOf (context : FlattenContext) (emission : Emission) (n : Nat) : Prop :=
  emission.oid = context.identity.oid (emission.model.id?.getD (context.drawnId n))

/-- Where both models have no ids of their own, the ids of the records are different. -/
def Emission.Apart (emission other : Emission) : Prop :=
  emission.model.id? = none → other.model.id? = none → emission.oid ≠ other.oid

instance : Std.Symm Emission.Apart := ⟨fun _ _ h hother hnone heq => h hnone hother heq.symm⟩

/-- Drawn ids with different numbers are different. -/
theorem Emission.apart_of_ne {context : FlattenContext} {emission other : Emission} {n m : Nat}
    (hdrawn : Function.Injective context.drawnId) (hn : emission.IdOf context n)
    (hm : other.IdOf context m) (hne : emission.model.id? = none → other.model.id? = none → n ≠ m) :
    emission.Apart other := by
  intro hnone hother heq
  rw [IdOf, hnone] at hn
  rw [IdOf, hother] at hm
  rw [hn, hm] at heq
  exact hne hnone hother (hdrawn (context.identity.oid_injective heq))

variable (context : FlattenContext) (root : Model) (meaning : Nat → Model)

/-! ## States and the instances written so far -/

/-- An instance with a label has been seen. -/
def Met (label : Nat) (state : FlattenState) : Prop := (state.seen.lookup label).isSome

/-- What an instance refers to is in a list. -/
def Refers (emission : Emission) (emitted : List Emission) : Prop :=
  ∀ index key nested, emission.model.puts[index]? = some (key, .reference nested) →
    ∃ child ∈ emitted, child.handle = emission.handle.child index nested ∧ child.model = nested

/-- The records of a state are those of a list of instances of the root.  No instance is there
twice, the labels of all have been seen, and what an instance refers to comes before it. -/
structure Accounts (emitted : List Emission) (state : FlattenState) : Prop where
  records : ∀ oidOf, Names oidOf emitted →
    state.records = emitted.map (Emission.record context.identity oidOf)
  once : (emitted.map Emission.handle).Nodup
  met : ∀ emission ∈ emitted, ∀ label, emission.handle.label = some label → Met label state
  reached : ∀ emission ∈ emitted, Reaches root emission.handle emission.model
  ordered : ∀ earlier emission later, emitted = earlier ++ emission :: later →
    Refers emission earlier

/-- Every instance smaller than the bound that has been seen has been written. -/
def Known (bound : Nat) (emitted : List Emission) (state : FlattenState) : Prop :=
  ∀ label oid, state.seen.lookup label = some oid → sizeOf (meaning label) < bound →
    ⟨⟨some label, []⟩, meaning label, oid⟩ ∈ emitted

/-- Nothing has been written where an instance can be, and the label above it has been seen. -/
structure Free (handle : Handle) (place : Handle → Prop) (emitted : List Emission)
    (state : FlattenState) : Prop where
  met : ∀ label, handle.label = some label → Met label state
  unused : ∀ emission ∈ emitted, ¬ place emission.handle

/-- What a part of the run adds: instances with labels that had not been seen, and such without
labels in certain places.  The ids are made of the models' own ids, or of drawn ones with different
numbers. -/
structure Adds (place : Handle → Prop) (emitted : List Emission) (before : FlattenState)
    (added : List Emission) (after : FlattenState) : Prop where
  accounts : Accounts context root (emitted ++ added) after
  kept : ∀ label, Met label before → Met label after
  noted : ∀ label oid, after.seen.lookup label = some oid →
    before.seen.lookup label = some oid ∨ ⟨⟨some label, []⟩, meaning label, oid⟩ ∈ added
  places : ∀ emission ∈ added,
    (∃ label, emission.handle.label = some label ∧ ¬ Met label before) ∨ place emission.handle
  drawn : before.drawn ≤ after.drawn
  ids : ∀ emission ∈ added, ∃ n, before.drawn ≤ n ∧
    (emission.model.id? = none → n < after.drawn) ∧ emission.IdOf context n
  apart : Function.Injective context.drawnId → added.Pairwise Emission.Apart

variable {context root meaning}

section Adds

variable {place : Handle → Prop} {emitted added more : List Emission} {a b c : FlattenState}

theorem Adds.refl (h : Accounts context root emitted a) :
    Adds context root meaning place emitted a [] a where
  accounts := by rwa [List.append_nil]
  kept _ hseen := hseen
  noted _ _ hseen := Or.inl hseen
  places := List.forall_mem_nil _
  drawn := Nat.le_refl _
  ids := List.forall_mem_nil _
  apart _ := List.Pairwise.nil

theorem Adds.trans (hab : Adds context root meaning place emitted a added b)
    (hbc : Adds context root meaning place (emitted ++ added) b more c) :
    Adds context root meaning place emitted a (added ++ more) c where
  accounts := by
    rw [← List.append_assoc]
    exact hbc.accounts
  kept label hseen := hbc.kept label (hab.kept label hseen)
  noted label oid hseen := by
    rcases hbc.noted label oid hseen with hseen | hmore
    · rcases hab.noted label oid hseen with hseen | hadded
      · exact Or.inl hseen
      · exact Or.inr (List.mem_append_left more hadded)
    · exact Or.inr (List.mem_append_right added hmore)
  places emission hemission := by
    rcases List.mem_append.mp hemission with hadded | hmore
    · exact hab.places emission hadded
    · rcases hbc.places emission hmore with ⟨label, hlabel, hunmet⟩ | hplace
      · exact Or.inl ⟨label, hlabel, fun hmet => hunmet (hab.kept label hmet)⟩
      · exact Or.inr hplace
  drawn := hab.drawn.trans hbc.drawn
  ids emission hemission := by
    rcases List.mem_append.mp hemission with hadded | hmore
    · obtain ⟨n, hn, hlt, hid⟩ := hab.ids emission hadded
      exact ⟨n, hn, fun hnone => Nat.lt_of_lt_of_le (hlt hnone) hbc.drawn, hid⟩
    · obtain ⟨n, hn, hlt, hid⟩ := hbc.ids emission hmore
      exact ⟨n, hab.drawn.trans hn, hlt, hid⟩
  apart hdrawn := by
    refine List.pairwise_append.mpr ⟨hab.apart hdrawn, hbc.apart hdrawn,
      fun emission hadded other hmore => ?_⟩
    obtain ⟨n, -, hlt, hn⟩ := hab.ids emission hadded
    obtain ⟨m, hle, -, hm⟩ := hbc.ids other hmore
    refine Emission.apart_of_ne hdrawn hn hm fun hnone _ => ?_
    have hbefore := hlt hnone
    omega

theorem Adds.mono {larger : Handle → Prop} (h : Adds context root meaning place emitted a added b)
    (hplace : ∀ handle, place handle → larger handle) :
    Adds context root meaning larger emitted a added b where
  accounts := h.accounts
  kept := h.kept
  noted := h.noted
  places emission hemission := (h.places emission hemission).imp_right (hplace _)
  drawn := h.drawn
  ids := h.ids
  apart := h.apart

theorem Known.of_adds {bound : Nat} (h : Known meaning bound emitted a)
    (hadds : Adds context root meaning place emitted a added b) :
    Known meaning bound (emitted ++ added) b := by
  intro label oid hseen hsize
  rcases hadds.noted label oid hseen with hold | hnew
  · exact List.mem_append_left added (h label oid hold hsize)
  · exact List.mem_append_right emitted hnew

/-- What has been added elsewhere leaves a place free. -/
theorem Free.of_adds {handle : Handle} {other smaller : Handle → Prop}
    (h : Free handle other emitted a)
    (hadds : Adds context root meaning place emitted a added b)
    (hsmaller : ∀ x, smaller x → other x) (hlabel : ∀ x, smaller x → x.label = handle.label)
    (hdisjoint : ∀ x, place x → ¬ smaller x) : Free handle smaller (emitted ++ added) b where
  met label hhandle := hadds.kept label (h.met label hhandle)
  unused emission hemission hplace := by
    rcases List.mem_append.mp hemission with hold | hadded
    · exact h.unused emission hold (hsmaller _ hplace)
    · rcases hadds.places emission hadded with ⟨label, hown, hunmet⟩ | hother
      · -- the label of the handle has been seen, the one of the new instance had not been
        exact hunmet (h.met label ((hlabel _ hplace).symm.trans hown))
      · exact hdisjoint _ hother hplace

end Adds

/-! ## Adding an instance -/

/-- In a list with one more item at its end, what precedes an item is as before, or it is the whole
list before. -/
theorem split_concat {α : Type} {items earlier later : List α} {last item : α}
    (h : items ++ [last] = earlier ++ item :: later) :
    (items = earlier ∧ last = item) ∨ ∃ rest, items = earlier ++ item :: rest := by
  rcases List.eq_nil_or_concat later with rfl | ⟨rest, other, rfl⟩
  · obtain ⟨hitems, hlast⟩ := List.append_inj' h rfl
    exact Or.inl ⟨hitems, (List.cons.inj hlast).1⟩
  · rw [List.concat_eq_append, ← List.cons_append, ← List.append_assoc] at h
    exact Or.inr ⟨rest, (List.append_inj' h rfl).1⟩

/-- The record of an instance is added after the records of what it refers to. -/
theorem Accounts.concat {emitted : List Emission} {own : Emission} {state : FlattenState}
    {record : Record} (h : Accounts context root emitted state)
    (hrecord : ∀ oidOf, Names oidOf (emitted ++ [own]) →
      record = own.record context.identity oidOf)
    (hnew : own.handle ∉ emitted.map Emission.handle)
    (hmet : ∀ label, own.handle.label = some label → Met label state)
    (hreached : Reaches root own.handle own.model) (hrefers : Refers own emitted) :
    Accounts context root (emitted ++ [own])
      { state with records := state.records ++ [record] } where
  records oidOf hnames := by
    rw [h.records oidOf hnames.left, hrecord oidOf hnames, List.map_append]
    rfl
  once := by
    rw [List.map_append]
    exact List.nodup_append_comm.mp (List.nodup_cons.mpr ⟨hnew, h.once⟩)
  met emission hemission := by
    rcases List.mem_append.mp hemission with hold | hown
    · exact h.met emission hold
    · rw [List.mem_singleton.mp hown]
      exact hmet
  reached emission hemission := by
    rcases List.mem_append.mp hemission with hold | hown
    · exact h.reached emission hold
    · rw [List.mem_singleton.mp hown]
      exact hreached
  ordered earlier emission later heq := by
    rcases split_concat heq with ⟨rfl, rfl⟩ | ⟨rest, hsplit⟩
    · exact hrefers
    · exact h.ordered earlier emission rest hsplit

end Remodel
