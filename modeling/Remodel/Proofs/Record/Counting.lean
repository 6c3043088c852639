import Mathlib.Data.List.Nodup
import Mathlib.Data.List.Perm.Subperm
import Mathlib.Order.Nat
import Remodel.Proofs.Table
import Remodel.Record.Rebuild

/-!
# Counting indices

How long a list or a map is, a record does not say.  A reader goes from index to index as long as
there is a key (`Scans`).  It always comes to an end, since the keys of different indices are
different and a record has finitely many entries (`exists_gap`).  What it counts is the least index
without a key (`isLeast_gaplessCount`).
-/

namespace Remodel

open Record Rebuild

/-- A loop that goes from index to index as long as they are present, from the index where it
stands to its end, with the indices that it comes through. -/
inductive Scans (present : Nat → Bool) : Nat → List Nat → Prop
  | stop {index : Nat} (habsent : present index = false) : Scans present index []
  | next {index : Nat} {visited : List Nat} (hpresent : present index = true)
      (hrest : Scans present (index + 1) visited) : Scans present index (index :: visited)

section Scanning

variable {present : Nat → Bool} {index count : Nat}

theorem scans_range' (hpresent : ∀ i < count, present (index + i) = true)
    (habsent : present (index + count) = false) :
    Scans present index (List.range' index count) := by
  induction count generalizing index with
  | zero => exact .stop habsent
  | succ count ih =>
      rw [List.range'_succ]
      refine .next (hpresent 0 (Nat.succ_pos count)) (ih (fun i hi => ?_) ?_)
      · rw [show index + 1 + i = index + (i + 1) by omega]
        exact hpresent (i + 1) (by omega)
      · rwa [show index + 1 + count = index + (count + 1) by omega]

theorem scans_range (hpresent : ∀ i < count, present i = true)
    (habsent : present count = false) : Scans present 0 (List.range count) := by
  rw [List.range_eq_range']
  refine scans_range' (fun i hi => ?_) ?_
  · rw [Nat.zero_add]
    exact hpresent i hi
  · rwa [Nat.zero_add]

/-- With as many tries as the loop has steps, its end is found. -/
theorem Scans.gapFrom_eq {visited : List Nat} (h : Scans present index visited) {bound : Nat}
    (hbound : visited.length ≤ bound) :
    gapFrom present bound index = index + visited.length := by
  induction h generalizing bound with
  | stop habsent =>
      cases bound with
      | zero => rfl
      | succ bound => simp [gapFrom, habsent]
  | next hpresent _ ih =>
      cases bound with
      | zero => cases hbound
      | succ bound =>
          rw [gapFrom, if_pos hpresent, ih (Nat.le_of_succ_le_succ hbound), List.length_cons]
          omega

end Scanning

section Counting

variable {record : Record} {keyOf : Nat → String} {count : Nat}

theorem mem_keys_of_contains {name : String} (h : record.contains name = true) :
    name ∈ record.keys := by
  obtain ⟨scalar, hscalar⟩ := Option.isSome_iff_exists.mp h
  exact List.mem_map_of_mem (Table.mem_of_lookup hscalar)

/-- Different keys that are all in a record are no more than its entries. -/
theorem le_length_entries (hinjective : Function.Injective keyOf)
    (hpresent : ∀ i < count, record.contains (keyOf i) = true) :
    count ≤ record.entries.length := by
  have hnodup : ((List.range count).map keyOf).Nodup := List.nodup_range.map hinjective
  have hsubset : (List.range count).map keyOf ⊆ record.keys := by
    intro name hname
    obtain ⟨i, hi, rfl⟩ := List.mem_map.mp hname
    exact mem_keys_of_contains (hpresent i (List.mem_range.mp hi))
  simpa [keys] using (List.subperm_of_subset hnodup hsubset).length_le

/-- As many indices are counted as there are, for a record holds no more keys than entries. -/
theorem gaplessCount_eq (hinjective : Function.Injective keyOf)
    (hpresent : ∀ i < count, record.contains (keyOf i) = true)
    (habsent : record.get? (keyOf count) = none) : gaplessCount record keyOf = count := by
  have hle : count ≤ record.entries.length := le_length_entries hinjective hpresent
  have hscans : Scans (fun index => record.contains (keyOf index)) 0 (List.range count) :=
    scans_range hpresent (by simp [contains, habsent])
  rw [gaplessCount, hscans.gapFrom_eq (by rw [List.length_range]; omega), List.length_range,
    Nat.zero_add]

theorem exists_gap (record : Record) (hinjective : Function.Injective keyOf) :
    ∃ index, record.get? (keyOf index) = none := by
  by_contra hall
  have hpresent : ∀ index, record.contains (keyOf index) = true := fun index =>
    Option.isSome_iff_ne_none.mpr fun hnone => hall ⟨index, hnone⟩
  -- one more key than the record has entries
  have hle : record.entries.length + 1 ≤ record.entries.length :=
    le_length_entries hinjective fun index _ => hpresent index
  omega

theorem contains_of_lt_gap {index : Nat}
    (hcount : IsLeast {index | record.get? (keyOf index) = none} count) (hindex : index < count) :
    record.contains (keyOf index) = true :=
  Option.isSome_iff_ne_none.mpr fun hnone => absurd (hcount.2 hnone) (Nat.not_le.mpr hindex)

/-- What is counted is the least index without a key. -/
theorem isLeast_gaplessCount (record : Record) (hinjective : Function.Injective keyOf) :
    IsLeast {index | record.get? (keyOf index) = none} (gaplessCount record keyOf) := by
  have hgap := Nat.isLeast_find (exists_gap record hinjective)
  rwa [gaplessCount_eq hinjective (fun index => contains_of_lt_gap hgap) hgap.1]

end Counting

end Remodel
