import Remodel.Model.Coercion
import Remodel.Proofs.Record.Keys

/-!
# The keys of a value

What is written for a value stands under keys of its own (`ownKeys`).  A reader that does not
know the value finds out by keys that are missing: the first index that has no key ends a list
or a map, and where nothing was written neither the key itself nor the first key of a list or a
map is there.  These are the value's guard keys (`guardKeys`).

Own keys and guard keys never meet, and both begin with the key of the value, with a digit or a
full stop behind it if there is anything behind it.
-/

namespace Remodel

open Record Text

namespace Value

/-- The keys under which a value that is no list or map is written. -/
def plainKeys (key : String) : Value → List String
  | file _ => [key, fileNameKey key]
  | _ => [key]

/-- The keys under which the elements of a list are written, from an index on. -/
def itemKeys (key : String) : Nat → List Value → List String
  | _, [] => []
  | index, item :: rest =>
    (if item.isCollection then [] else plainKeys (itemKey key index) item) ++
      itemKeys key (index + 1) rest

/-- The keys under which the entries of a map are written, from an index on. -/
def entryKeys (key : String) : Nat → List (Value × Value) → List String
  | _, [] => []
  | index, (k, v) :: rest =>
    if k.isCollection || v.isCollection then entryKeys key index rest
    else plainKeys (entryKey key index) k ++ plainKeys (entryValueKey key index) v ++
      entryKeys key (index + 1) rest

/-- The keys under which a value is written. -/
def ownKeys (key : String) : Value → List String
  | list items => itemKeys key 0 items
  | map entries => entryKeys key 0 entries
  | value => plainKeys key value

/-- The elements of a list before the first list or map among them. -/
def leadingItems (items : List Value) : List Value :=
  items.takeWhile fun item => !item.isCollection

/-- The entries of a map that hold no list or map. -/
def plainEntries (entries : List (Value × Value)) : List (Value × Value) :=
  entries.filter fun entry => !(entry.1.isCollection || entry.2.isCollection)

/-- The keys that are missing where nothing was written. -/
def absenceKeys (key : String) : List String := [key, itemKey key 0, entryKey key 0]

/-- The keys by whose absence a reader knows what was written, and where it ends. -/
def guardKeys (key : String) : Option Value → List String
  | none => absenceKeys key
  | some (list items) =>
    match (leadingItems items).length with
    | 0 => absenceKeys key
    | count + 1 => [entryKey key 0, itemKey key (count + 1)]
  | some (map entries) =>
    match (plainEntries entries).length with
    | 0 => absenceKeys key
    | count + 1 => [entryKey key (count + 1)]
  | some _ => []

/-- A statement holds of all values when it holds of those that are no list or map, of all lists
and of all maps. -/
@[elab_as_elim]
theorem collection_cases {motive : Value → Prop}
    (plain : ∀ value : Value, value.isCollection = false → motive value)
    (list : ∀ items, motive (.list items)) (map : ∀ entries, motive (.map entries))
    (value : Value) : motive value := by
  cases value with
  | list items => exact list items
  | map entries => exact map entries
  | _ => exact plain _ rfl

theorem ownKeys_of_plain {value : Value} (h : value.isCollection = false) (key : String) :
    ownKeys key value = plainKeys key value := by
  cases value with
  | list items => simp [isCollection] at h
  | map entries => simp [isCollection] at h
  | _ => rfl

theorem leadingItems_cons_of_plain {item : Value} (h : item.isCollection = false)
    (rest : List Value) : leadingItems (item :: rest) = item :: leadingItems rest := by
  simp [leadingItems, h]

theorem leadingItems_cons_of_collection {item : Value} (h : item.isCollection = true)
    (rest : List Value) : leadingItems (item :: rest) = [] := by
  simp [leadingItems, h]

theorem plainEntries_cons_of_plain {k v : Value} (h : (k.isCollection || v.isCollection) = false)
    (rest : List (Value × Value)) : plainEntries ((k, v) :: rest) = (k, v) :: plainEntries rest :=
  List.filter_cons_of_pos (by simpa using h)

theorem plainEntries_cons_of_collection {k v : Value}
    (h : (k.isCollection || v.isCollection) = true) (rest : List (Value × Value)) :
    plainEntries ((k, v) :: rest) = plainEntries rest :=
  List.filter_cons_of_neg (by simp only [h]; decide)

/-! ## Indices of own keys -/

theorem eq_or_eq_of_mem_plainKeys {key name : String} {value : Value}
    (h : name ∈ plainKeys key value) : name = key ∨ name = fileNameKey key := by
  cases value <;> simp_all [plainKeys]

theorem indexedKey_of_mem_itemKey {key name : String} {index : Nat} {value : Value}
    (h : name ∈ plainKeys (itemKey key index) value) : IndexedKey key index itemEndings name := by
  rcases eq_or_eq_of_mem_plainKeys h with rfl | rfl
  · exact indexedKey_itemKey key index
  · exact indexedKey_fileNameKey_itemKey key index

theorem indexedKey_of_mem_entryKey {key name : String} {index : Nat} {value : Value}
    (h : name ∈ plainKeys (entryKey key index) value) :
    IndexedKey key index entryEndings name := by
  rcases eq_or_eq_of_mem_plainKeys h with rfl | rfl
  · exact indexedKey_entryKey key index
  · exact indexedKey_fileNameKey_entryKey key index

theorem indexedKey_of_mem_entryValueKey {key name : String} {index : Nat} {value : Value}
    (h : name ∈ plainKeys (entryValueKey key index) value) :
    IndexedKey key index entryValueEndings name := by
  rcases eq_or_eq_of_mem_plainKeys h with rfl | rfl
  · exact indexedKey_entryValueKey key index
  · exact indexedKey_fileNameKey_entryValueKey key index

/-- A key of a list's elements has the index of an element that is no list or map. -/
theorem exists_of_mem_itemKeys {key name : String} {index : Nat} {items : List Value}
    (h : name ∈ itemKeys key index items) :
    ∃ place item, items[place]? = some item ∧ item.isCollection = false ∧
      IndexedKey key (index + place) itemEndings name := by
  induction items generalizing index with
  | nil => simp [itemKeys] at h
  | cons item rest ih =>
      rw [itemKeys, List.mem_append] at h
      rcases h with h | h
      · cases hitem : item.isCollection with
        | true => simp [hitem] at h
        | false =>
            rw [hitem, if_neg (by simp)] at h
            exact ⟨0, item, rfl, hitem, indexedKey_of_mem_itemKey h⟩
      · obtain ⟨place, found, hfound, hplain, hindexed⟩ := ih h
        refine ⟨place + 1, found, by simpa using hfound, hplain, ?_⟩
        rwa [show index + (place + 1) = index + 1 + place by omega]

/-- The endings of the keys of an entry. -/
def bothEndings : List String := entryEndings ++ entryValueEndings

/-- A key of a map's entries has an index below the number of entries that are written. -/
theorem exists_of_mem_entryKeys {key name : String} {index : Nat}
    {entries : List (Value × Value)} (h : name ∈ entryKeys key index entries) :
    ∃ place < (plainEntries entries).length, IndexedKey key (index + place) bothEndings name := by
  induction entries generalizing index with
  | nil => simp [entryKeys] at h
  | cons entry rest ih =>
      obtain ⟨k, v⟩ := entry
      rw [entryKeys] at h
      cases hskip : k.isCollection || v.isCollection with
      | true =>
          rw [if_pos hskip] at h
          obtain ⟨place, hplace, hindexed⟩ := ih h
          exact ⟨place, by rwa [plainEntries_cons_of_collection hskip], hindexed⟩
      | false =>
          have hlength : (plainEntries ((k, v) :: rest)).length =
              (plainEntries rest).length + 1 := by
            rw [plainEntries_cons_of_plain hskip, List.length_cons]
          rw [hskip, if_neg (by simp), List.mem_append, List.mem_append] at h
          rcases h with (h | h) | h
          · obtain ⟨ending, hmem, hname⟩ := indexedKey_of_mem_entryKey h
            exact ⟨0, by omega, ending, List.mem_append_left _ hmem, hname⟩
          · obtain ⟨ending, hmem, hname⟩ := indexedKey_of_mem_entryValueKey h
            exact ⟨0, by omega, ending, List.mem_append_right _ hmem, hname⟩
          · obtain ⟨place, hplace, hindexed⟩ := ih h
            refine ⟨place + 1, by omega, ?_⟩
            rwa [show index + (place + 1) = index + 1 + place by omega]

/-- The keys of an element do not meet those of the elements behind it. -/
theorem not_mem_itemKeys_of_mem {key name : String} {index : Nat} {value : Value}
    {items : List Value} (h : name ∈ plainKeys (itemKey key index) value) :
    name ∉ itemKeys key (index + 1) items := by
  intro hrest
  obtain ⟨place, -, -, -, hindexed⟩ := exists_of_mem_itemKeys hrest
  have := ((indexedKey_of_mem_itemKey h).unique hindexed (by decide) (by decide)).1
  omega

/-- The keys of an entry do not meet those of the entries behind it. -/
theorem not_mem_entryKeys_of_indexedKey {key name : String} {index : Nat} {endings : List String}
    {entries : List (Value × Value)} (h : IndexedKey key index endings name)
    (hendings : PlainEndings endings) : name ∉ entryKeys key (index + 1) entries := by
  intro hrest
  obtain ⟨place, -, hindexed⟩ := exists_of_mem_entryKeys hrest
  have := (h.unique hindexed hendings (by decide)).1
  omega

/-- The keys of an entry's key do not meet those of its value. -/
theorem not_mem_plainKeys_entryValueKey {key name : String} {index : Nat} {k v : Value}
    (h : name ∈ plainKeys (entryKey key index) k) :
    name ∉ plainKeys (entryValueKey key index) v := by
  intro hvalue
  obtain ⟨-, ending, hending, hother⟩ := (indexedKey_of_mem_entryKey h).unique
    (indexedKey_of_mem_entryValueKey hvalue) (by decide) (by decide)
  have hdisjoint : ∀ e ∈ entryEndings, e ∉ entryValueEndings := by decide
  exact hdisjoint ending hending hother

/-! ## Guard keys -/

theorem isCollection_of_getElem?_leadingItems {items : List Value} {item : Value}
    (h : items[(leadingItems items).length]? = some item) : item.isCollection = true := by
  induction items with
  | nil => simp at h
  | cons first rest ih =>
      cases hfirst : first.isCollection with
      | true =>
          rw [leadingItems_cons_of_collection hfirst] at h
          have hitem : first = item := by simpa using h
          rwa [← hitem]
      | false =>
          rw [leadingItems_cons_of_plain hfirst, List.length_cons, List.getElem?_cons_succ] at h
          exact ih h

/-- A list has no key at the index of its first list or map, or behind its end. -/
theorem itemKey_not_mem_itemKeys (key : String) (items : List Value) :
    itemKey key (leadingItems items).length ∉ itemKeys key 0 items := by
  intro h
  obtain ⟨place, item, hitem, hplain, hindexed⟩ := exists_of_mem_itemKeys h
  have hplace := ((indexedKey_itemKey key _).unique hindexed (by decide) (by decide)).1
  rw [Nat.zero_add] at hplace
  rw [← hplace] at hitem
  simp [isCollection_of_getElem?_leadingItems hitem] at hplain

theorem entryKey_not_mem_itemKeys (key : String) (place index : Nat) (items : List Value) :
    entryKey key place ∉ itemKeys key index items := by
  intro h
  obtain ⟨_, _, -, -, hindexed⟩ := exists_of_mem_itemKeys h
  obtain ⟨-, ending, hending, hother⟩ :=
    (indexedKey_entryKey key place).unique hindexed (by decide) (by decide)
  have hdisjoint : ∀ e ∈ entryEndings, e ∉ itemEndings := by decide
  exact hdisjoint ending hending hother

theorem key_not_mem_itemKeys (key : String) (index : Nat) (items : List Value) :
    key ∉ itemKeys key index items := by
  intro h
  obtain ⟨_, _, -, -, hindexed⟩ := exists_of_mem_itemKeys h
  exact hindexed.ne_key rfl

theorem entryKeys_eq_nil {key : String} {index : Nat} {entries : List (Value × Value)}
    (h : (plainEntries entries).length = 0) : entryKeys key index entries = [] := by
  rw [List.eq_nil_iff_forall_not_mem]
  intro name hname
  obtain ⟨place, hplace, -⟩ := exists_of_mem_entryKeys hname
  omega

/-- Nothing is written under a guard key of a value. -/
theorem not_mem_ownKeys_of_mem_guardKeys {key name : String} {value : Value}
    (h : name ∈ guardKeys key (some value)) : name ∉ ownKeys key value := by
  cases value with
  | list items =>
      have hlast := itemKey_not_mem_itemKeys key items
      rw [ownKeys]
      cases hcount : (leadingItems items).length with
      | zero =>
          -- a list of which nothing is written is guarded like a field that is not set
          rw [hcount] at hlast
          simp only [guardKeys, hcount, absenceKeys, List.mem_cons, List.not_mem_nil,
            or_false] at h
          rcases h with rfl | rfl | rfl
          · exact key_not_mem_itemKeys _ _ _
          · exact hlast
          · exact entryKey_not_mem_itemKeys _ _ _ _
      | succ count =>
          rw [hcount] at hlast
          simp only [guardKeys, hcount, List.mem_cons, List.not_mem_nil, or_false] at h
          rcases h with rfl | rfl
          · exact entryKey_not_mem_itemKeys _ _ _ _
          · exact hlast
  | map entries =>
      rw [ownKeys]
      cases hcount : (plainEntries entries).length with
      | zero => simp [entryKeys_eq_nil hcount]
      | succ count =>
          simp only [guardKeys, hcount, List.mem_cons, List.not_mem_nil, or_false] at h
          subst h
          intro hmem
          obtain ⟨place, hplace, hindexed⟩ := exists_of_mem_entryKeys hmem
          have := ((indexedKey_entryKey key _).unique hindexed (by decide) (by decide)).1
          omega
  | _ => simp [guardKeys] at h

end Value

end Remodel
