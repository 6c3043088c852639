import Remodel.Proofs.Record.Occurrences
import Remodel.Proofs.Record.Separation
import Remodel.Record.Basic

/-!
# What a record carries

A record carries a value under a key when it holds what flattening writes for it: scalars and
files as they are, and for a nested model the id of a record that is good for it
(`Carries`).  What makes a record good for a model is left open; it has to outlast further
records, and a record that carries the fields of a model has to be good for it as soon as the
records it names are (`Lasting`).
-/

namespace Remodel

open Record Value

/-- The record holds what is written under a key for a value that is no list or map. -/
def CarriesPlain (good : String → Model → Prop) (record : Record) (key : String) : Value → Prop
  | .model m => ∃ oid, record.get? key = some (.string oid) ∧ good oid m
  | .file f =>
    record.get? key = some (.string f.encoded) ∧
      record.get? (fileNameKey key) = some (.string f.name)
  | value => record.get? key = Scalar.ofValue? value

/-- The record holds what is written for the elements of a list from an index on. -/
def CarriesItems (good : String → Model → Prop) (record : Record) (key : String) :
    Nat → List Value → Prop
  | _, [] => True
  | index, item :: rest =>
    (item.isCollection = false → CarriesPlain good record (itemKey key index) item) ∧
      CarriesItems good record key (index + 1) rest

/-- The record holds what is written for the entries of a map from an index on. -/
def CarriesEntries (good : String → Model → Prop) (record : Record) (key : String) :
    Nat → List (Value × Value) → Prop
  | _, [] => True
  | index, (k, v) :: rest =>
    if k.isCollection || v.isCollection then CarriesEntries good record key index rest
    else CarriesPlain good record (entryKey key index) k ∧
      CarriesPlain good record (entryValueKey key index) v ∧
      CarriesEntries good record key (index + 1) rest

/-- The record holds what is written for a value. -/
def Carries (good : String → Model → Prop) (record : Record) (key : String) : Value → Prop
  | .list items => CarriesItems good record key 0 items
  | .map entries => CarriesEntries good record key 0 entries
  | value => CarriesPlain good record key value

variable {good better : String → Model → Prop} {record other : Record} {key : String}

theorem carries_of_plain {value : Value} (h : value.isCollection = false) :
    Carries good record key value = CarriesPlain good record key value := by
  cases value with
  | list items => simp [isCollection] at h
  | map entries => simp [isCollection] at h
  | _ => rfl

theorem CarriesPlain.transfer {value : Value} (h : CarriesPlain good record key value)
    (hgood : ∀ oid m, good oid m → better oid m)
    (hsame : ∀ name ∈ value.plainKeys key, other.get? name = record.get? name) :
    CarriesPlain better other key value := by
  cases value with
  | model m =>
      obtain ⟨oid, hoid, hm⟩ := h
      exact ⟨oid, by rw [hsame key (by simp [plainKeys]), hoid], hgood oid m hm⟩
  | file f =>
      obtain ⟨hcontent, hname⟩ := h
      exact ⟨by rw [hsame key (by simp [plainKeys]), hcontent],
        by rw [hsame (fileNameKey key) (by simp [plainKeys]), hname]⟩
  | _ => exact (hsame key (by simp [plainKeys])).trans h

theorem CarriesItems.transfer {index : Nat} {items : List Value}
    (h : CarriesItems good record key index items) (hgood : ∀ oid m, good oid m → better oid m)
    (hsame : ∀ name ∈ itemKeys key index items, other.get? name = record.get? name) :
    CarriesItems better other key index items := by
  induction items generalizing index with
  | nil => trivial
  | cons item rest ih =>
      rw [itemKeys] at hsame
      refine ⟨fun hplain => (h.1 hplain).transfer hgood fun name hname => hsame name ?_,
        ih h.2 fun name hname => hsame name (List.mem_append_right _ hname)⟩
      simp [hplain, hname]

theorem CarriesEntries.transfer {index : Nat} {entries : List (Value × Value)}
    (h : CarriesEntries good record key index entries)
    (hgood : ∀ oid m, good oid m → better oid m)
    (hsame : ∀ name ∈ entryKeys key index entries, other.get? name = record.get? name) :
    CarriesEntries better other key index entries := by
  induction entries generalizing index with
  | nil => trivial
  | cons entry rest ih =>
      obtain ⟨k, v⟩ := entry
      rw [CarriesEntries] at h ⊢
      rw [entryKeys] at hsame
      split at h
      · rename_i hskip
        rw [if_pos hskip] at hsame ⊢
        exact ih h hsame
      · rename_i hskip
        rw [if_neg hskip] at hsame ⊢
        obtain ⟨hk, hv, hrest⟩ := h
        exact ⟨hk.transfer hgood fun name hname => hsame name (by simp [hname]),
          hv.transfer hgood fun name hname => hsame name (by simp [hname]),
          ih hrest fun name hname => hsame name (by simp [hname])⟩

/-- A value is still carried by a record that agrees on the value's own keys. -/
theorem Carries.transfer {value : Value} (h : Carries good record key value)
    (hgood : ∀ oid m, good oid m → better oid m)
    (hsame : ∀ name ∈ value.ownKeys key, other.get? name = record.get? name) :
    Carries better other key value := by
  induction value using collection_cases with
  | plain value hplain =>
      rw [carries_of_plain hplain] at h ⊢
      rw [ownKeys_of_plain hplain] at hsame
      exact h.transfer hgood hsame
  | list items => exact CarriesItems.transfer h hgood hsame
  | map entries => exact CarriesEntries.transfer h hgood hsame

/-- The record holds the type of the model, carries the values of its separate fields, and
holds nothing under their guard keys. -/
structure Depicts (good : String → Model → Prop) (record : Record) (model : Model) : Prop where
  modelType : record.modelType? = some model.typeId
  carries : ∀ field ∈ model.descriptor.fields, Model.Separate model field.name →
    ∀ value, model.get? field.name = some value → Carries good record field.name value
  guards : ∀ field ∈ model.descriptor.fields, Model.Separate model field.name →
    ∀ name ∈ guardKeys field.name (model.get? field.name), record.get? name = none

theorem Depicts.transfer {model : Model} (h : Depicts good record model)
    (hgood : ∀ oid m, good oid m → better oid m) : Depicts better record model where
  modelType := h.modelType
  carries field hfield hseparate value hvalue :=
    (h.carries field hfield hseparate value hvalue).transfer hgood fun _ _ => rfl
  guards := h.guards

/-- Being good for a model outlasts further records, and a record that depicts a model over
the records before it is good for the model. -/
structure Lasting (good : List Record → String → Model → Prop) : Prop where
  mono : ∀ {records more : List Record} {oid : String} {model : Model},
    records <+: more → good records oid model → good more oid model
  depicts : ∀ {records : List Record} {record : Record} {model : Model},
    Depicts (good records) record model → good (records ++ [record]) record.oid model

end Remodel
