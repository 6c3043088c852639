import Mathlib.Data.List.Basic
import Remodel.Proofs.Record.Counting
import Remodel.Proofs.Record.Puts
import Remodel.Proofs.Record.Rebuilding

/-!
# Skipped elements and the indices of the others

A list or a map inside another one is skipped.  What is left should be numbered without a gap, so
that a reader, who stops at the first index without a key, gets to all of it (`LeavesNoGap`).  For
maps it is: an entry that is skipped takes no index.  An element of a list that is skipped keeps its
index, and so there is no gap exactly if nothing is skipped in front of an element that is written
(`leavesNoGap_map_and_list_iff`).  What stands behind a gap is lost.

## Strategy

* `flattenGapless` writes what is not skipped under the indices 0, 1, 2 and so on.  Entries are
  written so from any index on (`exec_flattenEntries_eq`), and elements if those that are skipped
  come last (`exec_flattenItems_eq`).
* After flattening there is a key for an index exactly if something was written under this index
  (`contains_exec_flattenValue`), which decides how far a reader gets: through the elements in front
  of the first one that is skipped (`gaplessCount_flattenItems`), and through all entries
  (`gaplessCount_flattenEntries`).
-/

namespace Remodel

open Record Value Flattening Rebuild

namespace Value

/-- The elements of a list that are no lists or maps. -/
def plainItems (items : List Value) : List Value := items.filter fun item => !item.isCollection

/-- Whether no list or map stands in front of an element that is none. -/
def PlainFirst (items : List Value) : Prop :=
  items.Pairwise fun item later => item.isCollection = true → later.isCollection = true

instance (items : List Value) : Decidable (PlainFirst items) :=
  inferInstanceAs (Decidable (items.Pairwise _))

/-- Writes a value without skipping an index: what is not skipped is numbered from zero on. -/
def flattenGapless (context : FlattenContext) (key : String) (value : Value) (record : Record) :
    Flattening Record :=
  match value with
  | list items =>
    (plainItems items).zipIdx.foldlM (fun record numbered =>
      flattenValue context (itemKey key numbered.2) numbered.1 record) record
  | map entries =>
    (plainEntries entries).zipIdx.foldlM (fun record numbered => do
      let record ← flattenValue context (entryKey key numbered.2) numbered.1.1 record
      flattenValue context (entryValueKey key numbered.2) numbered.1.2 record) record
  | plain => flattenValue context key plain record

/-- The key by which a reader knows that there is an index. -/
def indexKeyOf (key : String) : Value → Nat → String
  | map _ => entryKey key
  | _ => itemKey key

/-- How many elements or entries are not skipped. -/
def plainCount : Value → Nat
  | list items => (plainItems items).length
  | map entries => (plainEntries entries).length
  | _ => 0

end Value

/-- Whatever a record holds already, apart from keys of the indices, the value is written without
skipping an index, and a reader who stops at the first index without a key gets to all that is
not skipped. -/
structure LeavesNoGap (context : FlattenContext) (key : String) (value : Value) : Prop where
  writes : ∀ record state, exec (flattenValue context key value record) state =
    exec (value.flattenGapless context key record) state
  reaches : ∀ record state, (∀ index, record.get? (value.indexKeyOf key index) = none) →
    gaplessCount (exec (flattenValue context key value record) state).1 (value.indexKeyOf key) =
      value.plainCount

/-! ## Numbers without a gap -/

theorem plainItems_cons_of_plain {item : Value} (h : item.isCollection = false)
    (rest : List Value) : plainItems (item :: rest) = item :: plainItems rest :=
  List.filter_cons_of_pos (by simp [h])

theorem plainItems_cons_of_collection {item : Value} (h : item.isCollection = true)
    (rest : List Value) : plainItems (item :: rest) = plainItems rest :=
  List.filter_cons_of_neg (by simp [h])

theorem plainItems_eq_nil {items : List Value} (h : ∀ item ∈ items, item.isCollection = true) :
    plainItems items = [] :=
  List.filter_eq_nil_iff.mpr fun item hitem => by simp [h item hitem]

/-- Nothing is skipped in front of an element that is written exactly if all elements that are
written come before the first one that is skipped. -/
theorem plainFirst_iff {items : List Value} :
    PlainFirst items ↔ (leadingItems items).length = (plainItems items).length := by
  unfold PlainFirst
  induction items with
  | nil => exact ⟨fun _ => rfl, fun _ => List.Pairwise.nil⟩
  | cons item rest ih =>
      rw [List.pairwise_cons]
      cases hitem : item.isCollection with
      | false =>
          rw [leadingItems_cons_of_plain hitem, plainItems_cons_of_plain hitem, List.length_cons,
            List.length_cons, Nat.add_right_cancel_iff, ← ih]
          simp
      | true =>
          rw [leadingItems_cons_of_collection hitem, plainItems_cons_of_collection hitem,
            List.length_nil]
          constructor
          · rintro ⟨hrest, -⟩
            have hall : ∀ other ∈ rest, other.isCollection = true := fun other hother =>
              hrest other hother rfl
            rw [plainItems_eq_nil hall, List.length_nil]
          · intro hnone
            have hall : ∀ other ∈ rest, other.isCollection = true := fun other hother => by
              simpa using List.filter_eq_nil_iff.mp (List.length_eq_zero_iff.mp hnone.symm) other
                hother
            exact ⟨fun other hother _ => hall other hother,
              List.pairwise_of_forall_mem_list fun _ _ other hother _ => hall other hother⟩

section Write

variable (context : FlattenContext) (key : String)

/-- Entries are numbered without a gap, from any index on. -/
theorem exec_flattenEntries_eq (index : Nat) (entries : List (Value × Value)) (record : Record)
    (state : FlattenState) :
    exec (flattenEntries context key index entries record) state =
      exec (((plainEntries entries).zipIdx index).foldlM (fun record numbered => do
        let record ← flattenValue context (entryKey key numbered.2) numbered.1.1 record
        flattenValue context (entryValueKey key numbered.2) numbered.1.2 record) record) state := by
  induction entries generalizing index record state with
  | nil => rw [flattenEntries]; rfl
  | cons entry rest ih =>
      obtain ⟨k, v⟩ := entry
      rw [flattenEntries]
      cases hentry : k.isCollection || v.isCollection with
      | true =>
          rw [plainEntries_cons_of_collection hentry]
          simp only [if_true, exec_bind, exec_note]
          exact ih index record state
      | false =>
          rw [plainEntries_cons_of_plain hentry, List.zipIdx_cons, List.foldlM_cons]
          simp only [Bool.false_eq_true, if_false, exec_bind]
          exact ih (index + 1) _ _

/-- Elements are numbered without a gap if nothing is skipped in front of one. -/
theorem exec_flattenItems_eq {items : List Value} (h : PlainFirst items) (index : Nat)
    (record : Record) (state : FlattenState) :
    exec (flattenItems context key index items record) state =
      exec (((plainItems items).zipIdx index).foldlM (fun record numbered =>
        flattenValue context (itemKey key numbered.2) numbered.1 record) record) state := by
  induction items generalizing index record state with
  | nil => rw [flattenItems]; rfl
  | cons item rest ih =>
      obtain ⟨hfirst, hrest⟩ := List.pairwise_cons.mp h
      rw [flattenItems]
      cases hitem : item.isCollection with
      | true =>
          -- from here on everything is skipped
          have hall : ∀ other ∈ rest, other.isCollection = true := fun other hother =>
            hfirst other hother hitem
          have hnone := ih hrest (index + 1) record state
          rw [plainItems_eq_nil hall] at hnone
          rw [plainItems_cons_of_collection hitem, plainItems_eq_nil hall]
          simp only [if_true, exec_bind, exec_note]
          exact hnone
      | false =>
          rw [plainItems_cons_of_plain hitem, List.zipIdx_cons, List.foldlM_cons]
          simp only [Bool.false_eq_true, if_false, exec_bind]
          exact ih hrest (index + 1) _ _

end Write

/-! ## Keys that are there afterwards -/

theorem contains_put (record : Record) (key name : String) (scalar : Scalar) :
    (record.put key scalar).contains name = (decide (name = key) || record.contains name) := by
  by_cases hname : name = key
  · simp [contains, hname]
  · simp [contains, get?_put_of_ne _ _ hname, hname]

theorem contains_exec_writeAll (context : FlattenContext) (puts : List (String × Put))
    (record : Record) (state : FlattenState) (name : String) :
    (exec (Put.writeAll context puts record) state).1.contains name =
      (decide (name ∈ puts.map Prod.fst) || record.contains name) := by
  induction puts generalizing record state with
  | nil => rfl
  | cons put rest ih =>
      have hput : ∃ scalar, (exec (Put.write context record put) state).1 =
          record.put put.1 scalar := by
        obtain ⟨key, scalar | nested⟩ := put
        · exact ⟨_, rfl⟩
        · exact ⟨_, rfl⟩
      obtain ⟨scalar, hscalar⟩ := hput
      rw [exec_writeAll_cons, ih, hscalar, contains_put]
      by_cases hrest : name ∈ rest.map Prod.fst <;> by_cases hname : name = put.1 <;>
        simp [hrest, hname]

/-- Flattening puts a value under its own keys and takes nothing away. -/
theorem contains_exec_flattenValue (context : FlattenContext) (key : String) (value : Value)
    (record : Record) (state : FlattenState) (name : String) :
    (exec (flattenValue context key value record) state).1.contains name =
      (decide (name ∈ value.ownKeys key) || record.contains name) := by
  rw [exec_flattenValue, contains_exec_writeAll, map_fst_puts]

/-! ## How far a reader gets -/

theorem key_mem_plainKeys (key : String) (value : Value) : key ∈ plainKeys key value := by
  cases value <;> simp [plainKeys]

/-- Elements in front of the first list or map all have the key of their index. -/
theorem itemKey_mem_itemKeys {key : String} {index place : Nat} {items : List Value}
    (h : place < (leadingItems items).length) :
    itemKey key (index + place) ∈ itemKeys key index items := by
  induction items generalizing index place with
  | nil => cases h
  | cons item rest ih =>
      cases hitem : item.isCollection with
      | true =>
          rw [leadingItems_cons_of_collection hitem] at h
          cases h
      | false =>
          rw [leadingItems_cons_of_plain hitem, List.length_cons] at h
          rw [itemKeys, hitem, if_neg Bool.false_ne_true, List.mem_append]
          cases place with
          | zero => exact Or.inl (key_mem_plainKeys _ _)
          | succ place =>
              right
              rw [show index + (place + 1) = index + 1 + place by omega]
              exact ih (Nat.lt_of_succ_lt_succ h)

/-- Entries that are written all have the key of their number. -/
theorem entryKey_mem_entryKeys {key : String} {index place : Nat}
    {entries : List (Value × Value)} (h : place < (plainEntries entries).length) :
    entryKey key (index + place) ∈ entryKeys key index entries := by
  induction entries generalizing index place with
  | nil => cases h
  | cons entry rest ih =>
      obtain ⟨k, v⟩ := entry
      rw [entryKeys]
      cases hentry : k.isCollection || v.isCollection with
      | true =>
          rw [plainEntries_cons_of_collection hentry] at h
          rw [if_pos rfl]
          exact ih h
      | false =>
          rw [plainEntries_cons_of_plain hentry, List.length_cons] at h
          rw [if_neg Bool.false_ne_true, List.mem_append, List.mem_append]
          cases place with
          | zero => exact Or.inl (Or.inl (key_mem_plainKeys _ _))
          | succ place =>
              right
              rw [show index + (place + 1) = index + 1 + place by omega]
              exact ih (Nat.lt_of_succ_lt_succ h)

/-- A map has no key behind its last entry. -/
theorem entryKey_not_mem_entryKeys (key : String) (entries : List (Value × Value)) :
    entryKey key (plainEntries entries).length ∉ entryKeys key 0 entries := by
  intro h
  obtain ⟨place, hplace, hindexed⟩ := exists_of_mem_entryKeys h
  have hsame := ((indexedKey_entryKey key _).unique hindexed (by decide) (by decide)).1
  omega

section Count

variable (context : FlattenContext) (key : String) {record : Record} (state : FlattenState)

/-- If a value has keys for the indices up to a count, a reader gets to this count. -/
theorem gaplessCount_flattenValue {value : Value} {keyOf : Nat → String} {count : Nat}
    (hinjective : Function.Injective keyOf)
    (hfree : ∀ index, record.get? (keyOf index) = none)
    (hown : ∀ index < count, keyOf index ∈ value.ownKeys key)
    (hend : keyOf count ∉ value.ownKeys key) :
    gaplessCount (exec (flattenValue context key value record) state).1 keyOf = count := by
  refine gaplessCount_eq hinjective (fun index hindex => ?_) ?_
  · simp [contains_exec_flattenValue, hown index hindex]
  · have habsent := contains_exec_flattenValue context key value record state (keyOf count)
    simpa [contains, hend, hfree count] using habsent

/-- A reader of a list gets to its first list or map. -/
theorem gaplessCount_flattenItems (items : List Value)
    (hfree : ∀ index, record.get? (itemKey key index) = none) :
    gaplessCount (exec (flattenValue context key (.list items) record) state).1 (itemKey key) =
      (leadingItems items).length := by
  refine gaplessCount_flattenValue context key state (itemKey_injective key) hfree
    (fun index hindex => ?_) (itemKey_not_mem_itemKeys key items)
  have hmem : itemKey key (0 + index) ∈ itemKeys key 0 items := itemKey_mem_itemKeys hindex
  rwa [Nat.zero_add] at hmem

/-- A reader of a map gets to all entries that are written. -/
theorem gaplessCount_flattenEntries (entries : List (Value × Value))
    (hfree : ∀ index, record.get? (entryKey key index) = none) :
    gaplessCount (exec (flattenValue context key (.map entries) record) state).1 (entryKey key) =
      (plainEntries entries).length := by
  refine gaplessCount_flattenValue context key state (entryKey_injective key) hfree
    (fun index hindex => ?_) (entryKey_not_mem_entryKeys key entries)
  have hmem : entryKey key (0 + index) ∈ entryKeys key 0 entries := entryKey_mem_entryKeys hindex
  rwa [Nat.zero_add] at hmem

end Count

/-! ## Values without a gap -/

section NoGap

variable (context : FlattenContext) (key : String)

/-- In a record without entries, every key is free. -/
theorem get?_new (oid name : String) : (Record.new oid).get? name = none := rfl

theorem leavesNoGap_map (entries : List (Value × Value)) :
    LeavesNoGap context key (.map entries) where
  writes record state := by
    rw [flattenValue]
    exact exec_flattenEntries_eq context key 0 entries record state
  reaches _ state hfree := gaplessCount_flattenEntries context key state entries hfree

theorem leavesNoGap_list {items : List Value} (h : PlainFirst items) :
    LeavesNoGap context key (.list items) where
  writes record state := by
    rw [flattenValue]
    exact exec_flattenItems_eq context key h 0 record state
  reaches _ state hfree :=
    (gaplessCount_flattenItems context key state items hfree).trans (plainFirst_iff.mp h)

theorem leavesNoGap_list_iff (items : List Value) :
    LeavesNoGap context key (.list items) ↔ PlainFirst items := by
  refine ⟨fun h => plainFirst_iff.mpr ?_, leavesNoGap_list context key⟩
  have hfree : ∀ index, (Record.new "").get? (itemKey key index) = none := fun index =>
    get?_new "" (itemKey key index)
  rw [← gaplessCount_flattenItems context key ⟨[], [], 0⟩ items hfree]
  exact h.reaches (Record.new "") ⟨[], [], 0⟩ hfree

/-- **Numbers without a gap.**  Whatever is skipped of a map, the rest has numbers without a gap.
Of a list it has so exactly if nothing is skipped in front of an element that is written, and a
reader always gets to what stands in front of the first element that is skipped. -/
theorem leavesNoGap_map_and_list_iff :
    (∀ entries, LeavesNoGap context key (.map entries)) ∧
      (∀ items, LeavesNoGap context key (.list items) ↔ PlainFirst items) ∧
        ∀ items record state, (∀ index, record.get? (itemKey key index) = none) →
          gaplessCount (exec (flattenValue context key (.list items) record) state).1
            (itemKey key) = (leadingItems items).length :=
  ⟨leavesNoGap_map context key, leavesNoGap_list_iff context key,
    fun items _ state hfree => gaplessCount_flattenItems context key state items hfree⟩

end NoGap

namespace Post

def post : Descriptor := ⟨"Post", none, [⟨"title", .string, true⟩, ⟨"tags", .list .string, true⟩]⟩

def types : TypeTable := TypeTable.empty.insertAll [post]

def context : FlattenContext := ⟨⟨"blog", "main", ""⟩, fun _ => "n"⟩

/-- A list whose last element is skipped. -/
def trailing : List Value := [.string "a", .list [.string "x"]]

/-- A list whose first element is skipped. -/
def leading : List Value := [.list [.string "x"], .string "a"]

/-- A map whose first entry is skipped. -/
def marked : List (Value × Value) :=
  [(.string "x", .list [.string "y"]), (.string "a", .integer 1)]

def tagged : Model := ⟨post, [("title", .string "News"), ("tags", .list leading)], none⟩

/-- The record of the tagged post: the tag has the index 1, and nothing has the index 0. -/
def stored : Record :=
  ⟨"blog/main/n", [("connectorId", .string "main"), ("domainId", .string "blog"),
    ("instanceId", .string ""), ("modelType", .string "Post"), ("tags1", .string "a"),
    ("title", .string "News")], 0⟩

/-- What is left of the tagged post. -/
def untagged : Model := ⟨post, [("title", .string "News")], none⟩

theorem leavesNoGap_trailing :
    LeavesNoGap context "tags" (.list trailing) ∧ LeavesNoGap context "tags" (.map marked) ∧
      gaplessCount (exec (flattenValue context "tags" (.list trailing) (Record.new "n"))
        ⟨[], [], 0⟩).1 (itemKey "tags") = 1 :=
  have hnumbers := leavesNoGap_map_and_list_iff context "tags"
  ⟨(hnumbers.2.1 trailing).mpr (by decide), hnumbers.1 marked,
    hnumbers.2.2 trailing (Record.new "n") ⟨[], [], 0⟩ fun _ => rfl⟩

/-- The tag that is written behind a gap is lost. -/
theorem tags_lost :
    ¬ LeavesNoGap context "tags" (.list leading) ∧
      (tagged.flatten context).value.root? = some stored ∧
        RebuiltAs types context tagged untagged := by
  have hstored : (tagged.flatten context).value.root? = some stored := by with_unfolding_all rfl
  refine ⟨fun hgapless => ?_, hstored, stored, hstored, by with_unfolding_all rfl⟩
  have hreached := hgapless.reaches (Record.new "n") ⟨[], [], 0⟩ fun _ => rfl
  revert hreached
  decide +kernel

end Post

end Remodel
