import Mathlib.Data.List.Infix
import Remodel.Proofs.Record.OwnKeys

/-!
# Fields whose keys do not meet

A field of a model is separate when no other set field is written under one of its watched
keys, which are its own keys and its guard keys, and when its name is not reserved.  Then the
record of the model holds under the watched keys what it would hold if the field were the only
one.

`separate_of_prefixFree` gives a condition on the type alone: no field's name is the beginning
of another one's or of a reserved key.
-/

namespace Remodel

open Record Text Value

namespace Value

/-- The keys that tell a reader what a field holds. -/
def watchedKeys (key : String) (value : Option Value) : List String :=
  (value.map (ownKeys key)).getD [] ++ guardKeys key value

theorem belongsTo_of_mem_ownKeys {key name : String} {value : Value}
    (h : name ∈ ownKeys key value) : BelongsTo key name := by
  induction value using collection_cases with
  | plain value hplain =>
      rw [ownKeys_of_plain hplain] at h
      rcases eq_or_eq_of_mem_plainKeys h with h | h <;> rw [h]
      · exact belongsTo_self key
      · exact belongsTo_fileNameKey key
  | list items =>
      obtain ⟨_, _, -, -, hindexed⟩ := exists_of_mem_itemKeys h
      exact hindexed.belongsTo
  | map entries =>
      obtain ⟨_, -, hindexed⟩ := exists_of_mem_entryKeys h
      exact hindexed.belongsTo

theorem belongsTo_of_mem_absenceKeys {key name : String} (h : name ∈ absenceKeys key) :
    BelongsTo key name := by
  simp only [absenceKeys, List.mem_cons, List.not_mem_nil, or_false] at h
  rcases h with h | h | h <;> rw [h]
  · exact belongsTo_self key
  · exact (indexedKey_itemKey key 0).belongsTo
  · exact (indexedKey_entryKey key 0).belongsTo

theorem belongsTo_of_mem_guardKeys {key name : String} {value : Option Value}
    (h : name ∈ guardKeys key value) : BelongsTo key name := by
  unfold guardKeys at h
  split at h
  · exact belongsTo_of_mem_absenceKeys h
  · split at h
    · exact belongsTo_of_mem_absenceKeys h
    · simp only [List.mem_cons, List.not_mem_nil, or_false] at h
      rcases h with rfl | rfl
      · exact (indexedKey_entryKey key 0).belongsTo
      · exact (indexedKey_itemKey key _).belongsTo
  · split at h
    · exact belongsTo_of_mem_absenceKeys h
    · rw [List.mem_singleton.mp h]
      exact (indexedKey_entryKey key _).belongsTo
  · simp at h

theorem belongsTo_of_mem_watchedKeys {key name : String} {value : Option Value}
    (h : name ∈ watchedKeys key value) : BelongsTo key name := by
  rcases List.mem_append.mp h with h | h
  · cases value with
    | none => simp at h
    | some value => exact belongsTo_of_mem_ownKeys h
  · exact belongsTo_of_mem_guardKeys h

theorem not_mem_reservedKeys_of_mem_watchedKeys {key name : String} {value : Option Value}
    (hkey : key ∉ reservedKeys) (h : name ∈ watchedKeys key value) : name ∉ reservedKeys :=
  (belongsTo_of_mem_watchedKeys h).not_mem_reservedKeys hkey

end Value

/-! ## Separate fields -/

namespace Model

/-- The keys under which the set fields of other names are written. -/
def siblingKeys (model : Model) (name : String) : List String :=
  model.entries.flatMap fun entry =>
    if entry.1.name = name then [] else entry.2.ownKeys entry.1.name

/-- No other field is written under a watched key of the field, and its name is not
reserved. -/
structure Separate (model : Model) (name : String) : Prop where
  alone : ∀ key ∈ watchedKeys name (model.get? name), key ∉ model.siblingKeys name
  unreserved : name ∉ reservedKeys

instance (model : Model) (name : String) : Decidable (model.Separate name) :=
  decidable_of_iff
    ((∀ key ∈ watchedKeys name (model.get? name), key ∉ model.siblingKeys name) ∧
      name ∉ reservedKeys)
    ⟨fun h => ⟨h.1, h.2⟩, fun h => ⟨h.alone, h.unreserved⟩⟩

theorem mem_siblingKeys {model : Model} {name key : String} :
    key ∈ model.siblingKeys name ↔
      ∃ field ∈ model.descriptor.fields, field.name ≠ name ∧
        ∃ value, model.get? field.name = some value ∧ key ∈ value.ownKeys field.name := by
  simp only [siblingKeys, Instance.entries, List.mem_flatMap, List.mem_filterMap]
  constructor
  · rintro ⟨⟨field, value⟩, ⟨declared, hdeclared, hentry⟩, hkey⟩
    obtain ⟨found, hfound, heq⟩ := Option.map_eq_some_iff.mp hentry
    obtain ⟨rfl, rfl⟩ := Prod.mk.inj heq
    split at hkey
    · simp at hkey
    · rename_i hne
      exact ⟨declared, hdeclared, hne, found, hfound, hkey⟩
  · rintro ⟨field, hfield, hne, value, hvalue, hkey⟩
    exact ⟨(field, value), ⟨field, hfield, by simp [hvalue]⟩, by simpa [hne] using hkey⟩

end Model

/-- No field's name is the beginning of another field's name or of a reserved key. -/
structure Descriptor.PrefixFree (descriptor : Descriptor) : Prop where
  apart : ∀ f ∈ descriptor.fields, ∀ g ∈ descriptor.fields, f.name ≠ g.name →
    ¬ f.name.toList <+: g.name.toList
  unreserved : ∀ f ∈ descriptor.fields, ∀ key ∈ reservedKeys, ¬ f.name.toList <+: key.toList

instance (descriptor : Descriptor) : Decidable descriptor.PrefixFree :=
  decidable_of_iff
    ((∀ f ∈ descriptor.fields, ∀ g ∈ descriptor.fields, f.name ≠ g.name →
      ¬ f.name.toList <+: g.name.toList) ∧
    ∀ f ∈ descriptor.fields, ∀ key ∈ reservedKeys, ¬ f.name.toList <+: key.toList)
    ⟨fun h => ⟨h.1, h.2⟩, fun h => ⟨h.apart, h.unreserved⟩⟩

theorem separate_of_prefixFree {model : Model} (hfree : model.descriptor.PrefixFree)
    {field : Field} (hfield : field ∈ model.descriptor.fields) : model.Separate field.name where
  alone key hwatched hsibling := by
    obtain ⟨sibling, hsibling, hne, value, -, hown⟩ := Model.mem_siblingKeys.mp hsibling
    -- two beginnings of one key: one of them is the beginning of the other
    rcases List.prefix_or_prefix_of_prefix (belongsTo_of_mem_watchedKeys hwatched).isPrefix
      (belongsTo_of_mem_ownKeys hown).isPrefix with h | h
    · exact hfree.apart field hfield sibling hsibling (Ne.symm hne) h
    · exact hfree.apart sibling hsibling field hfield hne h
  unreserved hreserved := hfree.unreserved field hfield field.name hreserved List.prefix_rfl

end Remodel
