import Remodel.Proofs.Record.Counting
import Remodel.Proofs.Record.Keys
import Remodel.Proofs.Record.Reading

/-!
# Lists and maps end at the first gap

A list or a map is read up to the least index whose key is not in the record, whatever the record
holds at higher indices (`readStored_gaplessPrefix`).

## Strategy

* The reader stops, and it comes through just the indices below the first gap: `indexKey_injective`
  is all that counting asks for.
* Whether a field is read as a map or as a list is decided by its kind and by the keys of index zero
  (`isIndexed`).  The keys of a map win over those of a list.
* Each index gives what stands under its own keys (`result_readItems_scalar`,
  `result_readEntries_scalar`).  No other key is looked at, and so records that agree on these keys
  give the same (`Collects.eq_of_agree`).
-/

namespace Remodel

open Record Rebuild

/-- Whether what stands under a key is the value itself, as for all scalars.  A file has a name
beside it, and for a model there is the id of a record. -/
def Kind.isDirect (kind : Kind) : Bool := !kind.isModel && !kind.isFile

namespace Record

variable (record : Record) (key : String) (index : Nat)

/-- The element of a list at an index. -/
def elementAt? : Option Value := (record.get? (itemKey key index)).map Scalar.toValue

/-- The entry of a map at an index; nothing if the key or the value is not there. -/
def pairAt? : Option (Value × Value) :=
  (record.get? (entryKey key index)).bind fun k =>
    (record.get? (entryValueKey key index)).map fun v => (k.toValue, v.toValue)

end Record

/-- Whether a field is a list or a map of such kinds, and a record shows it by the keys of index
zero. -/
def isIndexed (record : Record) (field : Field) : Bool :=
  match field.kind with
  | .list item => item.isDirect && record.contains (itemKey field.name 0) &&
      !record.contains (entryKey field.name 0)
  | .map key own => key.isDirect && own.isDirect && record.contains (entryKey field.name 0)
  | _ => false

/-- The key that shows that a list or a map goes on to an index. -/
def indexKey (field : Field) (index : Nat) : String :=
  if field.kind.isMap then entryKey field.name index else itemKey field.name index

/-- The keys of a list or a map at an index. -/
def keysAt (field : Field) (index : Nat) : List String :=
  if field.kind.isMap then [entryKey field.name index, entryValueKey field.name index]
  else [itemKey field.name index]

/-- Whether a value consists of what a record holds at the first indices of a field, in order: of
all elements of a list, and of the entries of a map that have a value. -/
inductive Collects (record : Record) (field : Field) (count : Nat) : Value → Prop
  | list {items : List Value} (hkind : field.kind.isList = true)
      (hitems : items.map some = (List.range count).map (record.elementAt? field.name)) :
      Collects record field count (.list items)
  | map (hkind : field.kind.isMap = true) :
      Collects record field count
        (.map ((List.range count).filterMap (record.pairAt? field.name)))

variable {record other : Record} {field : Field}

/-! ## The keys of an index -/

theorem Kind.isMap_eq_false {kind : Kind} (h : kind.isList = true) : kind.isMap = false := by
  cases kind with
  | list item => rfl
  | _ => cases h

theorem indexKey_of_isMap (h : field.kind.isMap = true) : indexKey field = entryKey field.name :=
  funext fun _ => if_pos h

theorem indexKey_of_not_isMap (h : field.kind.isMap = false) :
    indexKey field = itemKey field.name :=
  funext fun _ => by rw [indexKey, h, if_neg Bool.false_ne_true]

theorem indexKey_injective (field : Field) : Function.Injective (indexKey field) := by
  cases h : field.kind.isMap with
  | true => exact indexKey_of_isMap h ▸ entryKey_injective field.name
  | false => exact indexKey_of_not_isMap h ▸ itemKey_injective field.name

theorem indexKey_mem_keysAt (field : Field) (index : Nat) :
    indexKey field index ∈ keysAt field index := by
  unfold indexKey keysAt
  split <;> exact List.mem_cons_self ..

/-! ## What the indices give -/

variable {nested : Nested} {fetch : RecordFetch} {key : String}

theorem result_readAt_of_isDirect {kind : Kind} (h : kind.isDirect = true) :
    (readAt nested fetch record key kind).result =
      .ok ((record.get? key).map Scalar.toValue) := by
  simp only [Kind.isDirect, Bool.and_eq_true, Bool.not_eq_true'] at h
  exact result_readAt_scalar h.1 h.2

theorem result_readItems_scalar {kind : Kind} (h : kind.isDirect = true) (indices : List Nat) :
    (readItems nested fetch record key kind indices).result =
      .ok (indices.filterMap (record.elementAt? key)) := by
  induction indices with
  | nil => rfl
  | cons index rest ih =>
      rw [readItems, Attempt.result_bind, result_readAt_of_isDirect h, ok_bind,
        List.filterMap_cons, elementAt?]
      cases record.get? (itemKey key index) with
      | none => exact ih
      | some scalar => simp [ih]

theorem result_readEntries_scalar (kinds : Kind × Kind) (hkey : kinds.1.isDirect = true)
    (hown : kinds.2.isDirect = true) (indices : List Nat) :
    (readEntries nested fetch record key kinds indices).result =
      .ok (indices.filterMap (record.pairAt? key)) := by
  induction indices with
  | nil => rfl
  | cons index rest ih =>
      rw [readEntries, Attempt.result_bind, result_readAt_of_isDirect hkey, ok_bind,
        Attempt.result_bind, result_readAt_of_isDirect hown, ok_bind, List.filterMap_cons,
        pairAt?]
      cases record.get? (entryKey key index) <;>
        cases record.get? (entryValueKey key index) <;> simp [ih]

/-- All of what is looked up is there. -/
theorem map_some_filterMap {α β : Type} {f : α → Option β} {l : List α}
    (h : ∀ a ∈ l, (f a).isSome = true) : (l.filterMap f).map some = l.map f := by
  rw [List.map_filterMap_some_eq_filter_map_isSome, List.filter_eq_self]
  simpa using h

/-- A list is read as far as its elements go without a gap. -/
theorem result_readStored_elements {item : Kind} (hkind : field.kind = .list item)
    (hdirect : item.isDirect = true) (hitem : record.contains (itemKey field.name 0) = true)
    (hentry : record.contains (entryKey field.name 0) = false) :
    (readStored nested fetch record field).result =
      .ok (some (.list ((List.range (gaplessCount record (itemKey field.name))).filterMap
        (record.elementAt? field.name)))) := by
  have hmap : isStoredMap record field = false := by rw [isStoredMap, hentry, Bool.false_and]
  have hlist : isStoredList record field = true := by
    rw [isStoredList, hitem, hkind]
    rfl
  have helement : field.kind.elementKind = item := by rw [hkind]; rfl
  simp [readStored, hmap, hlist, helement, result_readItems_scalar hdirect]

/-- A map is read as far as its keys go without a gap, whatever else is there. -/
theorem result_readStored_mapEntries {k own : Kind} (hkind : field.kind = .map k own)
    (hkey : k.isDirect = true) (hown : own.isDirect = true)
    (hentry : record.contains (entryKey field.name 0) = true) :
    (readStored nested fetch record field).result =
      .ok (some (.map ((List.range (gaplessCount record (entryKey field.name))).filterMap
        (record.pairAt? field.name)))) := by
  have hmap : isStoredMap record field = true := by
    rw [isStoredMap, hentry, hkind]
    rfl
  have hkinds : field.kind.entryOrSelf = (k, own) := by rw [hkind]; rfl
  simp [readStored, hmap, hkinds, result_readEntries_scalar (k, own) hkey hown]

/-- What is read of a list or a map is what stands at the indices in front of the first gap. -/
theorem exists_readStored (h : isIndexed record field = true) :
    ∃ value, Collects record field (gaplessCount record (indexKey field)) value ∧
      ∀ nested fetch, (readStored nested fetch record field).result = .ok (some value) := by
  have hleast := isLeast_gaplessCount record (indexKey_injective field)
  cases hkind : field.kind with
  | list item =>
      have hlist : field.kind.isList = true := by rw [hkind]; rfl
      rw [indexKey_of_not_isMap (Kind.isMap_eq_false hlist)] at hleast ⊢
      simp only [isIndexed, hkind, Bool.and_eq_true, Bool.not_eq_true'] at h
      obtain ⟨⟨hdirect, hitem⟩, hentry⟩ := h
      refine ⟨_, .list hlist (map_some_filterMap fun index hindex => ?_),
        fun nested fetch => result_readStored_elements hkind hdirect hitem hentry⟩
      have hpresent := contains_of_lt_gap hleast (List.mem_range.mp hindex)
      rw [elementAt?, Option.isSome_map]
      exact hpresent
  | map k own =>
      have hmap : field.kind.isMap = true := by rw [hkind]; rfl
      rw [indexKey_of_isMap hmap]
      simp only [isIndexed, hkind, Bool.and_eq_true] at h
      obtain ⟨⟨hkey, hown⟩, hentry⟩ := h
      exact ⟨_, .map hmap, fun nested fetch => result_readStored_mapEntries hkind hkey hown hentry⟩
  | _ => simp [isIndexed, hkind] at h

/-! ## Other records -/

/-- What is collected depends on the keys of the counted indices only. -/
theorem Collects.eq_of_agree {count : Nat} {value found : Value}
    (h : Collects record field count value) (hother : Collects other field count found)
    (hagree : ∀ index < count, ∀ key ∈ keysAt field index, other.get? key = record.get? key) :
    found = value := by
  cases h with
  | list hkind hitems =>
      cases hother with
      | list _ hfound =>
          have hmap := Kind.isMap_eq_false hkind
          refine congrArg Value.list (List.map_injective_iff.mpr (Option.some_injective _) ?_)
          rw [hitems, hfound]
          refine List.map_congr_left fun index hindex => ?_
          have hkeys := hagree index (List.mem_range.mp hindex)
          rw [elementAt?, elementAt?, hkeys _ (by simp [keysAt, hmap])]
      | map hmap => exact absurd ((Kind.isMap_eq_false hkind).symm.trans hmap) Bool.false_ne_true
  | map hkind =>
      cases hother with
      | list hlist => exact absurd ((Kind.isMap_eq_false hlist).symm.trans hkind) Bool.false_ne_true
      | map _ =>
          refine congrArg Value.map (List.filterMap_congr fun index hindex => ?_)
          have hkeys := hagree index (List.mem_range.mp hindex)
          rw [pairAt?, pairAt?, hkeys _ (by simp [keysAt, hkind]),
            hkeys _ (by simp [keysAt, hkind])]

/-- **Lists and maps are read up to the first gap.**  The reader stops at the least index without a
key.  It gets the elements of a list at the indices below, and of the entries of a map those that
have a value.  What stands at higher indices or under other keys makes no difference. -/
theorem readStored_gaplessPrefix (h : isIndexed record field = true) (nested : Nested)
    (fetch : RecordFetch) :
    ∃ count ≤ record.entries.length,
      IsLeast {index | record.get? (indexKey field index) = none} count ∧
      Scans (fun index => record.contains (indexKey field index)) 0 (List.range count) ∧
      ∃ value, Collects record field count value ∧
        (readStored nested fetch record field).result = .ok (some value) ∧
        ∀ (other : Record) (otherNested : Nested) (otherFetch : RecordFetch),
          isIndexed other field = true →
          (∀ index < count, ∀ key ∈ keysAt field index, other.get? key = record.get? key) →
          other.get? (indexKey field count) = none →
          (readStored otherNested otherFetch other field).result = .ok (some value) := by
  have hinjective := indexKey_injective field
  have hleast := isLeast_gaplessCount record hinjective
  have hpresent : ∀ index < gaplessCount record (indexKey field),
      record.contains (indexKey field index) = true := fun _ => contains_of_lt_gap hleast
  obtain ⟨value, hcollects, hread⟩ := exists_readStored h
  refine ⟨_, le_length_entries hinjective hpresent, hleast, ?_, value, hcollects,
    hread nested fetch, fun other otherNested otherFetch hother hagree habsent => ?_⟩
  · refine scans_range hpresent ?_
    rw [Record.contains, hleast.1]
    rfl
  · obtain ⟨found, hfound, hreads⟩ := exists_readStored hother
    have hcount : gaplessCount other (indexKey field) = gaplessCount record (indexKey field) := by
      refine gaplessCount_eq hinjective (fun index hindex => ?_) habsent
      have hkey := hagree index hindex _ (indexKey_mem_keysAt field index)
      have hthere := hpresent index hindex
      rwa [Record.contains, ← hkey] at hthere
    rw [hcount] at hfound
    rw [hreads otherNested otherFetch, hcollects.eq_of_agree hfound hagree]

namespace Estimates

def estimates : Field := ⟨"estimates", .map .string .integer, true⟩

/-- Three entries, of which the second has no value and the third is behind a gap. -/
def gapped : Record :=
  ⟨"issues/jira/m", [("estimates0.key", .string "a"), ("estimates0.value", .integer 1),
    ("estimates1.key", .string "b"), ("estimates3.key", .string "d"),
    ("estimates3.value", .integer 4)], 0⟩

/-- The same in front of the gap, and other things behind it and beside it. -/
def crowded : Record :=
  ⟨"issues/jira/n", [("estimates", .string "none"), ("estimates0", .boolean true),
    ("estimates0.key", .string "a"), ("estimates0.value", .integer 1),
    ("estimates1.key", .string "b"), ("estimates2.value", .integer 3),
    ("estimates4.key", .string "e")], 7⟩

theorem isLeast_gap : IsLeast {index | gapped.get? (indexKey estimates index) = none} 2 := by
  refine ⟨by decide +kernel, fun index hindex => Nat.le_of_not_lt fun hlt => ?_⟩
  have hthere : ∀ i < 2, gapped.get? (indexKey estimates i) ≠ none := by decide +kernel
  exact hthere index hlt hindex

theorem readStored_gaplessPrefix_estimates :
    isIndexed gapped estimates = true ∧ isIndexed crowded estimates = true ∧
      ∃ value, Collects gapped estimates 2 value ∧
        (readStored (fun _ _ => pure none) (RecordSource.fetch []) gapped estimates).result =
          .ok (some value) ∧
        (readStored (fun _ _ => pure none) (RecordSource.fetch []) crowded estimates).result =
          .ok (some value) := by
  have hgapped : isIndexed gapped estimates = true := by decide +kernel
  have hcrowded : isIndexed crowded estimates = true := by decide +kernel
  obtain ⟨count, -, hleast, -, value, hcollects, hread, hothers⟩ :=
    readStored_gaplessPrefix hgapped (fun _ _ => pure none) (RecordSource.fetch [])
  obtain rfl : count = 2 := hleast.unique isLeast_gap
  refine ⟨hgapped, hcrowded, value, hcollects, hread, hothers crowded _ _ hcrowded ?_ ?_⟩
  · decide +kernel
  · decide +kernel

end Estimates

end Remodel
