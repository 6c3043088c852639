import Mathlib.Data.List.Nodup
import Mathlib.Data.Set.List
import Remodel.Proofs.Record.Puts

/-!
# The keys of one field

The value of a field is stored under the name of the field, the elements of a list and the entries
of a map under the name and an index, and the name of a file beside its content.  No two of these
keys are equal, whatever the name of the field is, be it empty, a numeral or the key of another
field's element (`FieldKey.text_injective`).  So nothing that is put for a value takes the place of
what was put for it before.

Only keys of the same field are told apart: element 11 of a field `a` and element 1 of a field `a1`
have one key.

## Strategy

Behind the name of the field stands an index or nothing, and then an ending that begins with no
digit (`FieldKey.toList_text`).  So the index ends where the digits end, and with the index known
there is one key for each ending (`FieldKey.ofParts?_parts`).

What is put for a value is put under its own keys (`map_fst_puts`).  They are keys of the field
(`mem_range_text_of_mem_ownKeys`), and no key is among them twice (`nodup_ownKeys`), since the
elements of a list and the entries of a map have different indices.
-/

namespace Remodel

namespace Record

open Text

/-- What has a key of its own in a field: the value as a whole, an element of a list, and the key
and the value of an entry of a map. -/
inductive Slot
  | whole
  | item (index : Nat)
  | entry (index : Nat)
  | entryValue (index : Nat)
  deriving Repr, DecidableEq

/-- The key of a slot. -/
def Slot.key (field : String) : Slot → String
  | whole => field
  | item index => itemKey field index
  | entry index => entryKey field index
  | entryValue index => entryValueKey field index

/-- A key of a field: that of a slot, or that of the name of the file in a slot. -/
inductive FieldKey
  | slot (slot : Slot)
  | fileName (slot : Slot)
  deriving Repr, DecidableEq

/-- The text of a key. -/
def FieldKey.text (field : String) : FieldKey → String
  | slot s => s.key field
  | fileName s => fileNameKey (s.key field)

/-! ## The parts of a key -/

/-- The index of a slot. -/
def Slot.index? : Slot → Option Nat
  | whole => none
  | item index => some index
  | entry index => some index
  | entryValue index => some index

/-- What stands behind the index in the key of a slot. -/
def Slot.ending : Slot → String
  | whole => ""
  | item _ => ""
  | entry _ => ".key"
  | entryValue _ => ".value"

/-- The digits of an index, if there is one. -/
def indexChars (index? : Option Nat) : List Char := (index?.map decimal).getD []

theorem Slot.toList_key (field : String) (s : Slot) :
    (s.key field).toList = field.toList ++ (indexChars s.index? ++ s.ending.toList) := by
  cases s with
  | whole => simp [key, indexChars, index?, ending]
  | item index => simp [key, indexChars, index?, ending, toList_itemKey]
  | entry index => exact toList_entryKey field index
  | entryValue index => exact toList_entryValueKey field index

namespace FieldKey

/-- The index in a key. -/
def index? : FieldKey → Option Nat
  | slot s => s.index?
  | fileName s => s.index?

/-- What stands behind the index in a key. -/
def ending : FieldKey → String
  | slot s => s.ending
  | fileName s => s.ending ++ ".filename"

theorem toList_text (field : String) (k : FieldKey) :
    (k.text field).toList = field.toList ++ (indexChars k.index? ++ k.ending.toList) := by
  cases k with
  | slot s => exact s.toList_key field
  | fileName s =>
      rw [text, toList_fileNameKey, Slot.toList_key, ending, String.toList_append]
      simp only [index?, List.append_assoc]

theorem noDigitFirst_ending (k : FieldKey) : NoDigitFirst k.ending.toList := by
  rcases k with s | s <;> cases s <;> simp [NoDigitFirst, ending, Slot.ending]

/-- The key with the given index and ending. -/
def ofParts? : Option Nat → String → Option FieldKey
  | none, "" => some (slot .whole)
  | none, ".filename" => some (fileName .whole)
  | some index, "" => some (slot (.item index))
  | some index, ".filename" => some (fileName (.item index))
  | some index, ".key" => some (slot (.entry index))
  | some index, ".key.filename" => some (fileName (.entry index))
  | some index, ".value" => some (slot (.entryValue index))
  | some index, ".value.filename" => some (fileName (.entryValue index))
  | _, _ => none

theorem ofParts?_parts (k : FieldKey) : ofParts? k.index? k.ending = some k := by
  rcases k with s | s <;> cases s <;> rfl

end FieldKey

/-! ## Keys of one field are told apart -/

theorem isDigit_of_mem_indexChars {index? : Option Nat} {c : Char} (hc : c ∈ indexChars index?) :
    c.isDigit = true := by
  cases index? with
  | none => cases hc
  | some index => exact isDigit_of_mem_decimal hc

theorem natural?_indexChars (index? : Option Nat) : natural? (indexChars index?) = index? := by
  cases index? with
  | none => rfl
  | some index => exact natural?_decimal index

/-- An index that may be missing is read off in front of a text that does not begin with a digit. -/
theorem indexChars_append_inj {i? j? : Option Nat} {s t : List Char} (hs : NoDigitFirst s)
    (ht : NoDigitFirst t) (h : indexChars i? ++ s = indexChars j? ++ t) : i? = j? ∧ s = t := by
  obtain ⟨hdigits, hrest⟩ := digits_append_inj (fun _ => isDigit_of_mem_indexChars)
    (fun _ => isDigit_of_mem_indexChars) hs ht h
  refine ⟨?_, hrest⟩
  calc i? = natural? (indexChars i?) := (natural?_indexChars i?).symm
    _ = natural? (indexChars j?) := by rw [hdigits]
    _ = j? := natural?_indexChars j?

theorem FieldKey.text_injective (field : String) : Function.Injective (FieldKey.text field) := by
  intro p q h
  -- the name of the field is the same, and so what stands behind it is the same
  have htails : indexChars p.index? ++ p.ending.toList =
      indexChars q.index? ++ q.ending.toList := by
    have hchars := congrArg String.toList h
    rwa [toList_text, toList_text, List.append_cancel_left_eq] at hchars
  obtain ⟨hindex, hending⟩ :=
    indexChars_append_inj p.noDigitFirst_ending q.noDigitFirst_ending htails
  have hparts : some p = some q := by
    rw [← ofParts?_parts p, ← ofParts?_parts q, hindex, String.toList_inj.mp hending]
  exact Option.some.inj hparts

end Record

open Record

namespace Value

/-! ## Own keys are keys of the field -/

theorem mem_range_text_of_mem_plainKeys {field name : String} {value : Value} (s : Slot)
    (h : name ∈ plainKeys (s.key field) value) : name ∈ Set.range (FieldKey.text field) := by
  rcases eq_or_eq_of_mem_plainKeys h with rfl | rfl
  · exact ⟨.slot s, rfl⟩
  · exact ⟨.fileName s, rfl⟩

theorem mem_range_text_of_mem_itemKeys {field name : String} {index : Nat} {items : List Value}
    (h : name ∈ itemKeys field index items) : name ∈ Set.range (FieldKey.text field) := by
  induction items generalizing index with
  | nil => cases h
  | cons item rest ih =>
      rw [itemKeys, List.mem_append] at h
      rcases h with h | h
      · split at h
        · cases h
        · exact mem_range_text_of_mem_plainKeys (.item index) h
      · exact ih h

theorem mem_range_text_of_mem_entryKeys {field name : String} {index : Nat}
    {entries : List (Value × Value)} (h : name ∈ entryKeys field index entries) :
    name ∈ Set.range (FieldKey.text field) := by
  induction entries generalizing index with
  | nil => cases h
  | cons entry rest ih =>
      obtain ⟨k, v⟩ := entry
      rw [entryKeys] at h
      split at h
      · exact ih h
      · rw [List.mem_append, List.mem_append] at h
        rcases h with (h | h) | h
        · exact mem_range_text_of_mem_plainKeys (.entry index) h
        · exact mem_range_text_of_mem_plainKeys (.entryValue index) h
        · exact ih h

theorem mem_range_text_of_mem_ownKeys {field name : String} {value : Value}
    (h : name ∈ ownKeys field value) : name ∈ Set.range (FieldKey.text field) := by
  induction value using collection_cases with
  | plain value hplain =>
      rw [ownKeys_of_plain hplain] at h
      exact mem_range_text_of_mem_plainKeys .whole h
  | list items => exact mem_range_text_of_mem_itemKeys h
  | map entries => exact mem_range_text_of_mem_entryKeys h

/-! ## Every own key is there once -/

theorem nodup_plainKeys (key : String) (value : Value) : (plainKeys key value).Nodup := by
  cases value with
  | file f => simpa [plainKeys] using ne_fileNameKey key
  | _ => exact List.nodup_singleton key

theorem nodup_itemKeys (key : String) (index : Nat) (items : List Value) :
    (itemKeys key index items).Nodup := by
  induction items generalizing index with
  | nil => exact List.nodup_nil
  | cons item rest ih =>
      rw [itemKeys]
      cases item.isCollection with
      | true => exact ih (index + 1)
      | false =>
          exact (nodup_plainKeys _ item).append (ih (index + 1)) fun _ => not_mem_itemKeys_of_mem

theorem nodup_entryKeys (key : String) (index : Nat) (entries : List (Value × Value)) :
    (entryKeys key index entries).Nodup := by
  induction entries generalizing index with
  | nil => exact List.nodup_nil
  | cons entry rest ih =>
      obtain ⟨k, v⟩ := entry
      rw [entryKeys]
      cases k.isCollection || v.isCollection with
      | true => exact ih index
      | false =>
          have hentry : (plainKeys (entryKey key index) k ++
              plainKeys (entryValueKey key index) v).Nodup :=
            (nodup_plainKeys _ k).append (nodup_plainKeys _ v) fun _ =>
              not_mem_plainKeys_entryValueKey
          refine hentry.append (ih (index + 1)) fun name hname => ?_
          rcases List.mem_append.mp hname with hkey | hvalue
          · exact not_mem_entryKeys_of_indexedKey (indexedKey_of_mem_entryKey hkey) (by decide)
          · exact not_mem_entryKeys_of_indexedKey (indexedKey_of_mem_entryValueKey hvalue)
              (by decide)

theorem nodup_ownKeys (key : String) (value : Value) : (ownKeys key value).Nodup := by
  induction value using collection_cases with
  | plain value hplain =>
      rw [ownKeys_of_plain hplain]
      exact nodup_plainKeys key value
  | list items => exact nodup_itemKeys key 0 items
  | map entries => exact nodup_entryKeys key 0 entries

end Value

/-! ## The keys of a field never meet -/

/-- The keys of one field are equal only if they are the same key of the same slot, and flattening
puts what a value consists of (`exec_flattenValue`) under keys of the field, under none of them
twice. -/
theorem Record.FieldKey.text_eq_iff_and_put_once (field : String) :
    (∀ p q : FieldKey, p.text field = q.text field ↔ p = q) ∧
      ∀ value : Value, ∃ keys : List FieldKey,
        keys.Nodup ∧ (value.puts field).map Prod.fst = keys.map (FieldKey.text field) := by
  refine ⟨fun p q => (text_injective field).eq_iff, fun value => ?_⟩
  have hrange : value.ownKeys field ∈ Set.range (List.map (FieldKey.text field)) := by
    rw [Set.range_list_map]
    exact fun _ => Value.mem_range_text_of_mem_ownKeys
  obtain ⟨keys, hkeys⟩ := hrange
  refine ⟨keys, List.Nodup.of_map (FieldKey.text field) ?_, ?_⟩
  · rw [hkeys]
    exact Value.nodup_ownKeys field value
  · rw [hkeys, Value.map_fst_puts]

end Remodel
