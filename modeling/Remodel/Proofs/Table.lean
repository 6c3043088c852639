import Remodel.Table

/-!
# Keys of tables

A table whose values are a function of the key holds that function's value under each key, in
whatever order and however often the keys were put in (`lookup_ofList_filterMap`).  If the keys are
different, nothing but the order of the entries changes (`ofList_perm`).

Putting an entry into a table and taking one out keep its keys ascending (`Ascending.insert`,
`Ascending.erase`).  An entry of such a table is what is looked up under its key
(`Ascending.mem_iff_lookup`), and the table is made of its entries in any order
(`Ascending.ofList_eq`).  A table that is made of entries holds the last one of each key
(`lookup_ofList`), so entries in front of others matter only under keys that these do not have
(`ofList_append_eq_iff`).
-/

namespace Remodel.Table

variable {α : Type}

theorem lookup_foldl_insert (valueOf? : String → Option α) (keys : List String) (key : String)
    (table : List (String × α)) :
    ((keys.filterMap fun k => (valueOf? k).map (k, ·)).foldl
      (fun table entry => insert entry.1 entry.2 table) table).lookup key =
        if key ∈ keys then (valueOf? key).or (table.lookup key) else table.lookup key := by
  induction keys generalizing table with
  | nil => simp
  | cons first rest ih =>
      cases hfirst : valueOf? first with
      | none =>
          rw [List.filterMap_cons_none (by rw [hfirst]; rfl), ih]
          by_cases hkey : key = first
          · simp [hkey, hfirst]
          · simp [hkey]
      | some value =>
          rw [List.filterMap_cons_some (by rw [hfirst]; rfl), List.foldl_cons, ih, lookup_insert]
          by_cases hkey : key = first
          · simp [hkey, hfirst]
          · simp [hkey]

/-- The table of the keys under which a function has a value. -/
theorem lookup_ofList_filterMap (valueOf? : String → Option α) (keys : List String)
    (key : String) :
    (ofList (keys.filterMap fun k => (valueOf? k).map (k, ·))).lookup key =
      if key ∈ keys then valueOf? key else none := by
  rw [ofList, lookup_foldl_insert, List.lookup_nil, Option.or_none]

theorem lookup_ofList_map (valueOf : String → α) (keys : List String) (key : String) :
    (ofList (keys.map fun k => (k, valueOf k))).lookup key =
      if key ∈ keys then some (valueOf key) else none := by
  rw [← lookup_ofList_filterMap fun k => some (valueOf k), ← List.filterMap_eq_map']
  rfl

theorem insert_perm {key : String} {table : List (String × α)} (hkey : key ∉ table.map Prod.fst)
    (value : α) : (insert key value table).Perm ((key, value) :: table) := by
  induction table with
  | nil => exact List.Perm.refl _
  | cons entry rest ih =>
      obtain ⟨other, old⟩ := entry
      obtain ⟨hother, hrest⟩ : key ≠ other ∧ key ∉ rest.map Prod.fst := by simpa using hkey
      simp only [insert, if_neg hother]
      split
      · exact List.Perm.refl _
      · exact ((ih hrest).cons (other, old)).trans (List.Perm.swap ..)

/-- Keys are in one order or the other. -/
theorem lt_of_not_lt {key name : String} (hne : key ≠ name) (h : ¬ key < name) : name < key :=
  Classical.byContradiction fun hnot =>
    hne (String.le_antisymm (String.not_lt.mp hnot) (String.not_lt.mp h))

theorem insert_comm_of_lt {key name : String} (hlt : key < name) (v w : α)
    (table : List (String × α)) :
    insert key v (insert name w table) = insert name w (insert key v table) := by
  have hne : name ≠ key := (String.ne_of_lt hlt).symm
  have hnot : ¬ name < key := fun h => String.lt_irrefl key (String.lt_trans hlt h)
  induction table with
  | nil => simp [insert, hlt, hnot, hne]
  | cons entry rest ih =>
      obtain ⟨other, old⟩ := entry
      -- where the smaller key goes decides where the larger one may go
      by_cases hbefore : key < other
      · by_cases hname : name < other
        · simp [insert, hbefore, hname, hlt, hnot, hne]
        · by_cases heq : name = other
          · subst heq
            simp [insert, hbefore, hnot, hne]
          · simp [insert, hbefore, hname, heq, hnot, hne]
      · have hname : ¬ name < other := fun h => hbefore (String.lt_trans hlt h)
        have hother : name ≠ other := fun h => hbefore (h ▸ hlt)
        by_cases heq : key = other
        · subst heq
          simp [insert, hname, hother]
        · simp [insert, hbefore, hname, heq, hother, ih]

/-- Entries with different keys may be put in in any order. -/
theorem insert_comm {key name : String} (hne : key ≠ name) (v w : α) (table : List (String × α)) :
    insert key v (insert name w table) = insert name w (insert key v table) := by
  by_cases hlt : key < name
  · exact insert_comm_of_lt hlt v w table
  · exact (insert_comm_of_lt (lt_of_not_lt hne hlt) w v table).symm

theorem mem_of_mem_insert {key : String} {value : α} {table : List (String × α)}
    {entry : String × α} (h : entry ∈ insert key value table) :
    entry = (key, value) ∨ entry ∈ table := by
  induction table with
  | nil => exact Or.inl (List.mem_singleton.mp h)
  | cons other rest ih =>
      simp only [insert] at h
      split at h
      · exact List.mem_cons.mp h
      · split at h
        · exact (List.mem_cons.mp h).imp_right (List.mem_cons_of_mem other)
        · rcases List.mem_cons.mp h with rfl | h
          · exact Or.inr (List.mem_cons_self ..)
          · exact (ih h).imp_right (List.mem_cons_of_mem other)

/-- A table of entries with different keys has just these entries. -/
theorem ofList_perm {entries : List (String × α)} (hkeys : (entries.map Prod.fst).Nodup) :
    (ofList entries).Perm entries := by
  suffices hfold : ∀ table : List (String × α),
      (∀ key ∈ entries.map Prod.fst, key ∉ table.map Prod.fst) →
      (entries.foldl (fun table entry => insert entry.1 entry.2 table) table).Perm
        (entries ++ table) by
    simpa [ofList] using hfold [] (by simp)
  induction entries with
  | nil => exact fun table _ => List.Perm.refl table
  | cons entry rest ih =>
      obtain ⟨key, value⟩ := entry
      intro table hfresh
      obtain ⟨hkey, hrest⟩ := List.nodup_cons.mp hkeys
      have hinsert : (insert key value table).Perm ((key, value) :: table) :=
        insert_perm (hfresh key (List.mem_cons_self ..)) value
      rw [List.foldl_cons]
      refine (ih hrest _ ?_).trans ((hinsert.append_left rest).trans List.perm_middle)
      intro other hother hmem
      rw [(hinsert.map Prod.fst).mem_iff, List.map_cons, List.mem_cons] at hmem
      rcases hmem with rfl | hmem
      · exact hkey hother
      · exact hfresh other (List.mem_cons_of_mem key hother) hmem

theorem mem_of_lookup {table : List (String × α)} {key : String} {value : α}
    (h : table.lookup key = some value) : (key, value) ∈ table := by
  obtain ⟨before, after, htable, -⟩ := List.lookup_eq_some_iff.mp h
  rw [htable]
  exact List.mem_append_right _ (List.mem_cons_self ..)

theorem mem_keys_iff_isSome_lookup {table : List (String × α)} {key : String} :
    key ∈ table.map Prod.fst ↔ (table.lookup key).isSome = true := by
  simp

theorem mem_keys_ofList_map (valueOf : String → α) (keys : List String) (key : String) :
    key ∈ (ofList (keys.map fun k => (k, valueOf k))).map Prod.fst ↔ key ∈ keys := by
  rw [mem_keys_iff_isSome_lookup, lookup_ofList_map]
  by_cases hkey : key ∈ keys <;> simp [hkey]

/-! ## Ascending keys -/

/-- The keys ascend, each once. -/
def Ascending (table : List (String × α)) : Prop := (table.map Prod.fst).Pairwise (· < ·)

variable {table : List (String × α)} {key : String}

theorem ascending_iff : Ascending table ↔ table.Pairwise fun a b => a.1 < b.1 := List.pairwise_map

theorem mem_keys_insert {value : α} {name : String} :
    name ∈ (insert key value table).map Prod.fst ↔ name = key ∨ name ∈ table.map Prod.fst := by
  rw [mem_keys_iff_isSome_lookup, mem_keys_iff_isSome_lookup, lookup_insert]
  by_cases hname : name = key <;> simp [hname]

theorem Ascending.insert (h : Ascending table) (key : String) (value : α) :
    Ascending (insert key value table) := by
  unfold Ascending at *
  induction table with
  | nil => simp [Table.insert]
  | cons entry rest ih =>
      obtain ⟨other, old⟩ := entry
      obtain ⟨hother, hrest⟩ := List.pairwise_cons.mp h
      simp only [Table.insert]
      split
      · rename_i hlt
        refine List.pairwise_cons.mpr ⟨fun name hname => ?_, h⟩
        rcases List.mem_cons.mp hname with rfl | hname
        · exact hlt
        · exact String.lt_trans hlt (hother name hname)
      · split
        · rename_i heq
          subst heq
          exact List.pairwise_cons.mpr ⟨hother, hrest⟩
        · rename_i hge hne
          have hlt : other < key := lt_of_not_lt hne hge
          refine List.pairwise_cons.mpr ⟨fun name hname => ?_, ih hrest⟩
          rcases mem_keys_insert.mp hname with rfl | hname
          · exact hlt
          · exact hother name hname

theorem Ascending.erase (h : Ascending table) (key : String) : Ascending (erase key table) :=
  h.sublist (List.filter_sublist.map Prod.fst)

theorem Ascending.nodup (h : Ascending table) : (table.map Prod.fst).Nodup :=
  List.Pairwise.imp (fun hlt => String.ne_of_lt hlt) h

theorem ascending_ofList (entries : List (String × α)) : Ascending (ofList entries) := by
  suffices hfold : ∀ table : List (String × α), Ascending table →
      Ascending (entries.foldl (fun table entry => insert entry.1 entry.2 table) table) from
    hfold [] List.Pairwise.nil
  induction entries with
  | nil => exact fun _ h => h
  | cons entry rest ih => exact fun table h => ih _ (h.insert entry.1 entry.2)

/-- A table is made of its entries in any order. -/
theorem Ascending.ofList_eq (h : Ascending table) {entries : List (String × α)}
    (hperm : entries.Perm table) : ofList entries = table := by
  have hkeys : (entries.map Prod.fst).Nodup := (hperm.map Prod.fst).nodup_iff.mpr h.nodup
  have hsame : (ofList entries).Perm table := (ofList_perm hkeys).trans hperm
  exact hsame.eq_of_pairwise
    (fun a b _ _ hab hba => absurd (String.lt_trans hab hba) (String.lt_irrefl _))
    (ascending_iff.mp (ascending_ofList entries)) (ascending_iff.mp h)

/-- An entry is what is looked up under its key. -/
theorem Ascending.mem_iff_lookup (h : Ascending table) {value : α} :
    (key, value) ∈ table ↔ table.lookup key = some value := by
  unfold Ascending at h
  induction table with
  | nil => simp
  | cons entry rest ih =>
      obtain ⟨other, old⟩ := entry
      obtain ⟨hother, hrest⟩ := List.pairwise_cons.mp h
      by_cases hkey : key = other
      · subst hkey
        have hfresh : (key, value) ∉ rest := fun hmem =>
          String.lt_irrefl key (hother key (List.mem_map_of_mem hmem))
        simp [hfresh, eq_comm]
      · rw [lookup_cons_of_ne old rest hkey, ← ih hrest]
        simp [hkey]

/-! ## Tables of entries -/

/-- Tables with ascending keys are the same if they hold the same. -/
theorem Ascending.ext (h : Ascending table) {other : List (String × α)} (hother : Ascending other)
    (hlookup : ∀ key, table.lookup key = other.lookup key) : table = other := by
  have hentries : ∀ {entries : List (String × α)}, Ascending entries → entries.Nodup :=
    fun hkeys => List.Pairwise.of_map Prod.fst
      (fun _ _ hne heq => hne (congrArg Prod.fst heq)) hkeys.nodup
  have hperm : table.Perm other := by
    refine (List.perm_ext_iff_of_nodup (hentries h) (hentries hother)).mpr fun entry => ?_
    rw [h.mem_iff_lookup, hother.mem_iff_lookup, hlookup]
  rw [← hother.ofList_eq hperm, h.ofList_eq (List.Perm.refl _)]

theorem ofList_concat (entries : List (String × α)) (entry : String × α) :
    ofList (entries ++ [entry]) = insert entry.1 entry.2 (ofList entries) := by
  rw [ofList, List.foldl_append]
  rfl

/-- What a table of entries holds under a key was put there last. -/
theorem lookup_ofList (entries : List (String × α)) (key : String) :
    (ofList entries).lookup key = entries.reverse.lookup key := by
  suffices hfold : ∀ table : List (String × α),
      (entries.foldl (fun table entry => insert entry.1 entry.2 table) table).lookup key =
        (entries.reverse.lookup key).or (table.lookup key) by
    rw [ofList, hfold, List.lookup_nil, Option.or_none]
  induction entries with
  | nil => exact fun _ => rfl
  | cons entry rest ih =>
      obtain ⟨name, value⟩ := entry
      intro table
      have hfirst : (insert name value table).lookup key =
          (List.lookup key [(name, value)]).or (table.lookup key) := by
        rw [lookup_insert]
        by_cases hkey : key = name
        · simp [hkey]
        · simp [hkey, lookup_cons_of_ne]
      rw [List.foldl_cons, ih, List.reverse_cons, List.lookup_append, hfirst, Option.or_assoc]

/-- Where there is one entry for every key, the table holds the entries. -/
theorem lookup_ofList_eq_some_iff {entries : List (String × α)}
    (hsingle : ∀ a ∈ entries, ∀ b ∈ entries, a.1 = b.1 → a = b) {key : String} {value : α} :
    (ofList entries).lookup key = some value ↔ (key, value) ∈ entries := by
  have hmem : ∀ {value}, (ofList entries).lookup key = some value → (key, value) ∈ entries := by
    intro value hlookup
    rw [lookup_ofList] at hlookup
    exact List.mem_reverse.mp (mem_of_lookup hlookup)
  refine ⟨hmem, fun hentry => ?_⟩
  have hkey : key ∈ entries.reverse.map Prod.fst :=
    List.mem_map_of_mem (f := Prod.fst) (List.mem_reverse.mpr hentry)
  rw [mem_keys_iff_isSome_lookup, ← lookup_ofList] at hkey
  obtain ⟨found, hfound⟩ := Option.isSome_iff_exists.mp hkey
  have hsame := hsingle _ (hmem hfound) _ hentry rfl
  rw [hfound, (Prod.mk.inj hsame).2]

/-- How often there is an entry, and at which places, makes no difference if there is one for
every key. -/
theorem ofList_eq_of_mem_iff {entries others : List (String × α)}
    (hmem : ∀ entry, entry ∈ entries ↔ entry ∈ others)
    (hsingle : ∀ a ∈ entries, ∀ b ∈ entries, a.1 = b.1 → a = b) :
    ofList entries = ofList others := by
  have hothers : ∀ a ∈ others, ∀ b ∈ others, a.1 = b.1 → a = b := fun a ha b hb =>
    hsingle a ((hmem a).mpr ha) b ((hmem b).mpr hb)
  refine (ascending_ofList entries).ext (ascending_ofList others) fun key => ?_
  refine Option.ext fun value => ?_
  rw [lookup_ofList_eq_some_iff hsingle, lookup_ofList_eq_some_iff hothers, hmem]

theorem lookup_ofList_append (entries more : List (String × α)) (key : String) :
    (ofList (entries ++ more)).lookup key =
      ((ofList more).lookup key).or ((ofList entries).lookup key) := by
  rw [lookup_ofList, lookup_ofList, lookup_ofList, List.reverse_append, List.lookup_append]

@[simp] theorem ofList_ofList (entries : List (String × α)) :
    ofList (ofList entries) = ofList entries :=
  (ascending_ofList entries).ofList_eq (List.Perm.refl _)

/-- Entries that follow may be put into a table before. -/
theorem ofList_append_ofList (entries more : List (String × α)) :
    ofList (entries ++ ofList more) = ofList (entries ++ more) := by
  refine (ascending_ofList _).ext (ascending_ofList _) fun key => ?_
  rw [lookup_ofList_append, lookup_ofList_append, ofList_ofList]

/-- Entries in front change nothing exactly if others with their keys follow. -/
theorem ofList_append_eq_iff (entries more : List (String × α)) :
    ofList (entries ++ more) = ofList more ↔
      ∀ entry ∈ entries, entry.1 ∈ (ofList more).map Prod.fst := by
  constructor
  · intro heq entry hentry
    rw [← heq, mem_keys_iff_isSome_lookup, lookup_ofList, ← mem_keys_iff_isSome_lookup,
      List.map_reverse, List.mem_reverse]
    exact List.mem_map_of_mem (List.mem_append_left _ hentry)
  · intro hkeys
    refine (ascending_ofList _).ext (ascending_ofList _) fun key => ?_
    rw [lookup_ofList_append]
    cases hmore : (ofList more).lookup key with
    | some value => rfl
    | none =>
        rw [Option.none_or, ← Option.not_isSome_iff_eq_none, lookup_ofList,
          ← mem_keys_iff_isSome_lookup, List.map_reverse, List.mem_reverse]
        intro hmem
        obtain ⟨entry, hentry, rfl⟩ := List.mem_map.mp hmem
        have hsome := mem_keys_iff_isSome_lookup.mp (hkeys entry hentry)
        rw [hmore] at hsome
        cases hsome
end Remodel.Table
