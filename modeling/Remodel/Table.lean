/-!
# Tables

Entries by ascending key, each key once.  A table is a plain list of pairs; what it
holds is seen through `List.lookup`.

## Strategy

`insert` keeps the order and replaces an equal key.  `lookup_insert` says what it
does to the view, whatever the list, and `lookup_erase` the same for `erase`.
-/

namespace Remodel.Table

variable {α : Type}

/-- Puts an entry at its place among ascending keys, instead of one with the same key. -/
def insert (key : String) (value : α) : List (String × α) → List (String × α)
  | [] => [(key, value)]
  | (other, old) :: rest =>
    if key < other then (key, value) :: (other, old) :: rest
    else if key = other then (key, value) :: rest
    else (other, old) :: insert key value rest

/-- The table of a list of entries, the last of equal keys winning. -/
def ofList (entries : List (String × α)) : List (String × α) :=
  entries.foldl (fun table entry => insert entry.1 entry.2 table) []

/-- The table without the entry of a key. -/
def erase (key : String) (table : List (String × α)) : List (String × α) :=
  table.filter fun entry => entry.1 ≠ key

theorem lookup_cons_of_ne {key name : String} (value : α) (rest : List (String × α))
    (hne : name ≠ key) : ((key, value) :: rest).lookup name = rest.lookup name := by
  simp [List.lookup_cons, beq_eq_false_iff_ne.2 hne]

theorem sizeOf_lt_of_lookup [SizeOf α] {table : List (String × α)} {key : String} {value : α}
    (hlookup : table.lookup key = some value) : sizeOf value < sizeOf table := by
  induction table with
  | nil => cases hlookup
  | cons entry rest ih =>
    obtain ⟨name, own⟩ := entry
    simp only [List.cons.sizeOf_spec, Prod.mk.sizeOf_spec]
    by_cases hname : key = name
    · subst hname
      obtain rfl : own = value := by simpa using hlookup
      omega
    · rw [lookup_cons_of_ne own rest hname] at hlookup
      have hrest := ih hlookup
      omega

theorem lookup_insert (key : String) (value : α) (table : List (String × α)) (name : String) :
    (insert key value table).lookup name =
      if name = key then some value else table.lookup name := by
  induction table with
  | nil =>
    by_cases hn : name = key
    · simp [insert, hn]
    · simp [insert, lookup_cons_of_ne, hn]
  | cons entry rest ih =>
    obtain ⟨other, old⟩ := entry
    simp only [insert]
    split
    · by_cases hn : name = key
      · simp [hn]
      · simp [lookup_cons_of_ne value _ hn, hn]
    · split
      · rename_i hk
        subst hk
        by_cases hn : name = key
        · simp [hn]
        · simp [lookup_cons_of_ne _ rest hn, hn]
      · rename_i hk
        by_cases hn : name = other
        · subst hn
          simp [Ne.symm hk]
        · simp [lookup_cons_of_ne old _ hn, ih]

@[simp] theorem lookup_insert_self (key : String) (value : α) (table : List (String × α)) :
    (insert key value table).lookup key = some value := by
  simp [lookup_insert]

theorem lookup_insert_of_ne {key name : String} (value : α) (table : List (String × α))
    (hne : name ≠ key) : (insert key value table).lookup name = table.lookup name := by
  simp [lookup_insert, hne]

theorem lookup_erase (key : String) (table : List (String × α)) (name : String) :
    (erase key table).lookup name = if name = key then none else table.lookup name := by
  induction table with
  | nil => simp [erase]
  | cons entry rest ih =>
    obtain ⟨other, old⟩ := entry
    have ih : (rest.filter fun entry => entry.1 ≠ key).lookup name =
        if name = key then none else rest.lookup name := ih
    by_cases ho : other = key
    · subst ho
      by_cases hn : name = other
      · simpa [erase, hn] using ih
      · simpa [erase, hn, lookup_cons_of_ne old rest hn] using ih
    · by_cases hn : name = other
      · subst hn
        simp [erase, ho]
      · simp only [erase, List.filter_cons]
        simp only [ne_eq, ho, not_false_eq_true, decide_true, ↓reduceIte]
        rw [lookup_cons_of_ne old _ hn, lookup_cons_of_ne old _ hn]
        exact ih

end Remodel.Table
