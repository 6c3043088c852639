import Remodel.Proofs.Store.Inserting
import Remodel.Proofs.Store.TimeTravel

/-!
# The history of a record

The records that stood under an id are the records of its revisions (`recordsOf`).  A batch adds
to them and takes nothing away, and a record gets the number after the last one: marks of
deletions are no records, so they neither show in the history nor use up a number.

An id is known to a store from its first revision on (`ids`).  Updates and deletions are only
accepted for live records, so it is an insert that makes an id known.

* `history_eq`: the history of an id, in these terms;
* `Numbered.commit`, `mem_ids_commit`, `prefix_commit`: what a committed batch does to the numbers,
  the known ids and the records of an id;
* `after_keeps`: what every batch keeps is kept by a run;
* `history_after`: histories after every run.
-/

namespace Remodel

namespace Store

/-- The records that stood under an id, oldest first. -/
def recordsOf (store : Store) (oid : String) : List Record :=
  (store.revisionsOf oid).filterMap Revision.record

/-- The ids that have revisions. -/
def ids (store : Store) : List String := store.revisions.map Prod.fst

/-- The versions of the records under each id are 1, 2, 3 and so on. -/
def Numbered (store : Store) : Prop :=
  ∀ oid, (store.recordsOf oid).map Record.version = List.range' 1 (store.recordsOf oid).length

variable {store after : Store} {changes : Commit} {clock time : Int} {oid : String}

/-! ## Histories and live records -/

theorem history_eq (store : Store) (oid : String) :
    store.history oid =
      if oid ∈ store.ids then .ok (store.recordsOf oid) else .error (.notFound oid) := by
  have hknown : oid ∈ store.ids ↔ (store.revisions.lookup oid).isSome = true :=
    Table.mem_keys_iff_isSome_lookup
  unfold history recordsOf revisionsOf
  cases hlookup : store.revisions.lookup oid with
  | none =>
      rw [hlookup] at hknown
      rw [if_neg fun hmem => Bool.false_ne_true (hknown.mp hmem)]
  | some revisions =>
      rw [hlookup] at hknown
      rw [if_pos (hknown.mpr rfl)]
      rfl

theorem mem_ids_of_current? {record : Record} (h : store.current? oid = some record) :
    oid ∈ store.ids := by
  unfold current? revisionsOf at h
  refine Table.mem_keys_iff_isSome_lookup.mpr ?_
  cases hlookup : store.revisions.lookup oid with
  | none =>
      rw [hlookup] at h
      cases h
  | some revisions => rfl

/-- The live record is the last one that stood under its id. -/
theorem recordsOf_of_current? {record : Record} (h : store.current? oid = some record) :
    ∃ earlier, store.recordsOf oid = earlier ++ [record] := by
  obtain ⟨revision, hlast, hrecord⟩ := Option.bind_eq_some_iff.mp h
  obtain ⟨front, hfront⟩ := List.getLast?_eq_some_iff.mp hlast
  refine ⟨front.filterMap Revision.record, ?_⟩
  rw [recordsOf, hfront, List.filterMap_append, List.filterMap_cons_some hrecord,
    List.filterMap_nil]

/-! ## Numbers -/

theorem recordsOf_push (store : Store) (oid : String) (revision : Revision) (name : String) :
    (store.push oid revision).recordsOf name =
      if name = oid then store.recordsOf oid ++ revision.record.toList
      else store.recordsOf name := by
  unfold recordsOf
  rw [revisionsOf_push]
  by_cases hname : name = oid
  · cases hrecord : revision.record <;> simp [hname, hrecord]
  · simp only [if_neg hname]

theorem versionAfterLast_eq (store : Store) (oid : String) :
    store.versionAfterLast oid = (store.recordsOf oid).length + 1 := by
  rw [versionAfterLast, recordsOf, List.length_filterMap_eq_countP, List.countP_eq_length_filter]

theorem numbered_empty : empty.Numbered := fun _ => rfl

theorem Numbered.writeRecord (h : store.Numbered) (time : Int) (record : Record) :
    (store.writeRecord time record).Numbered := by
  intro name
  rw [Store.writeRecord, recordsOf_push]
  split
  · rw [versionAfterLast_eq, Option.toList_some, List.map_append, List.length_append,
      List.length_singleton, List.range'_concat, h]
    simp [Nat.add_comm]
  · exact h name

theorem Numbered.deleteRecord (h : store.Numbered) (time : Int) (oid : String) :
    (store.deleteRecord time oid).Numbered := by
  intro name
  rw [Store.deleteRecord, recordsOf_push]
  split
  · rw [Option.toList_none, List.append_nil]
    exact h oid
  · exact h name

theorem Numbered.commit (h : store.Numbered)
    (hcommit : store.commit changes clock = .ok (after, time)) : after.Numbered := by
  obtain ⟨-, -, rfl⟩ := commit_eq_ok_iff.mp hcommit
  have hwritten :
      ((changes.inserts ++ changes.updates).foldl (Store.writeRecord time) store).Numbered :=
    List.foldlRecOn _ _ h fun _ hold record _ => hold.writeRecord time record
  exact List.foldlRecOn changes.deletes (Store.deleteRecord time) hwritten
    fun _ hold deleted _ => hold.deleteRecord time deleted

/-! ## Known ids -/

theorem mem_ids_push {revision : Revision} {name : String} :
    name ∈ (store.push oid revision).ids ↔ name = oid ∨ name ∈ store.ids :=
  Table.mem_keys_insert

theorem mem_ids_foldl {α : Type} {change : Store → α → Store} (key : α → String)
    (hchange : ∀ store item name, name ∈ (change store item).ids ↔
      name = key item ∨ name ∈ store.ids) (items : List α) (store : Store) (name : String) :
    name ∈ (items.foldl change store).ids ↔ name ∈ items.map key ∨ name ∈ store.ids := by
  induction items generalizing store with
  | nil => simp
  | cons item rest ih =>
      rw [List.foldl_cons, ih, hchange, List.map_cons, List.mem_cons]
      tauto

/-- A committed batch makes the ids known that it inserts: what it updates or deletes was live. -/
theorem mem_ids_commit (hcommit : store.commit changes clock = .ok (after, time)) {name : String} :
    name ∈ after.ids ↔ (∃ record ∈ changes.inserts, record.oid = name) ∨ name ∈ store.ids := by
  obtain ⟨haccepted, -, rfl⟩ := commit_eq_ok_iff.mp hcommit
  obtain ⟨-, hupdates, hdeletes⟩ := refusal?_eq_none_iff.mp haccepted
  have hlive : ∀ oid, store.current? oid ≠ none → oid ∈ store.ids := fun oid hne => by
    obtain ⟨record, hrecord⟩ := Option.ne_none_iff_exists'.mp hne
    exact mem_ids_of_current? hrecord
  have hids : name ∈ (store.apply changes time).ids ↔ name ∈ changes.deletes.map id ∨
      name ∈ (changes.inserts ++ changes.updates).map Record.oid ∨ name ∈ store.ids := by
    rw [← mem_ids_foldl Record.oid fun _ _ _ => mem_ids_push]
    exact mem_ids_foldl id (fun _ _ _ => mem_ids_push) changes.deletes _ name
  rw [hids, List.map_id, List.map_append, List.mem_append, List.mem_map, List.mem_map]
  constructor
  · rintro (hdeleted | (hinserted | ⟨record, hrecord, rfl⟩) | hknown)
    · exact Or.inr (hlive name (hdeletes name hdeleted))
    · exact Or.inl hinserted
    · exact Or.inr (hlive record.oid (hupdates record hrecord))
    · exact Or.inr hknown
  · rintro (hinserted | hknown)
    · exact Or.inr (Or.inl (Or.inl hinserted))
    · exact Or.inr (Or.inr hknown)

/-! ## Runs -/

/-- A batch adds to the records of an id. -/
theorem prefix_commit (hcommit : store.commit changes clock = .ok (after, time)) (oid : String) :
    store.recordsOf oid <+: after.recordsOf oid := by
  obtain ⟨-, -, rfl⟩ := commit_eq_ok_iff.mp hcommit
  obtain ⟨added, hadded, -⟩ := appends_apply store changes time oid
  refine ⟨added.filterMap Revision.record, ?_⟩
  rw [recordsOf, recordsOf, hadded, List.filterMap_append]

/-- What every committed batch keeps is kept by a run, for what is refused changes nothing. -/
theorem after_keeps {P : Store → Prop}
    (hcommit : ∀ {store after changes clock time}, P store →
      store.commit changes clock = .ok (after, time) → P after)
    (h : P store) (run : List Submission) : P (store.after run) := by
  refine List.foldlRecOn run submit h fun store hstore submission _ => ?_
  rw [submit_eq]
  cases hresult : store.commit submission.changes submission.clock with
  | error fault => exact hstore
  | ok result => exact hcommit hstore hresult

theorem numbered_after (run : List Submission) : (empty.after run).Numbered :=
  after_keeps Numbered.commit numbered_empty run

theorem prefix_after (store : Store) (run : List Submission) (oid : String) :
    store.recordsOf oid <+: (store.after run).recordsOf oid :=
  after_keeps (P := fun later => store.recordsOf oid <+: later.recordsOf oid)
    (fun hold hcommit => hold.trans (prefix_commit hcommit oid)) (List.prefix_refl _) run

/-- The ids that become known in a run are those that a committed batch inserts. -/
theorem mem_ids_after (store : Store) (run : List Submission) (name : String) :
    name ∈ (store.after run).ids ↔
      (∃ commit ∈ store.accepted run, ∃ record ∈ commit.submission.changes.inserts,
        record.oid = name) ∨ name ∈ store.ids := by
  induction run generalizing store with
  | nil => simp [after, accepted]
  | cons submission rest ih =>
      rw [after, List.foldl_cons, submit_eq, accepted]
      cases hresult : store.commit submission.changes submission.clock with
      | error fault => exact ih store
      | ok result =>
          rw [List.exists_mem_cons_iff, or_assoc, or_left_comm, ← mem_ids_commit hresult]
          exact ih result.1

/-- **The history of a record only grows, and its versions are numbered without gaps.**  The
records under an id have the versions 1, 2, 3 and so on; whatever is submitted later, accepted or
not, the history so far is the beginning of the new one.  There is no history exactly if no
committed batch inserted the id, and the record that is fetched is the last of its history. -/
theorem history_after (run later : List Submission) (oid : String) :
    (∀ records, (empty.after run).history oid = .ok records →
        records.map Record.version = List.range' 1 records.length ∧
          ∃ newer, (empty.after (run ++ later)).history oid = .ok (records ++ newer)) ∧
      ((∃ fault, (empty.after run).history oid = .error fault) ↔
        ∀ commit ∈ empty.accepted run, ∀ record ∈ commit.submission.changes.inserts,
          record.oid ≠ oid) ∧
      ∀ record, (empty.after run).fetch oid = .ok record →
        ∃ earlier, (empty.after run).history oid = .ok (earlier ++ [record]) := by
  have hlater : empty.after (run ++ later) = (empty.after run).after later :=
    List.foldl_append
  have hknown := mem_ids_after empty run oid
  rw [history_eq]
  refine ⟨?_, ?_, ?_⟩
  · intro records hhistory
    split at hhistory
    · rename_i hmem
      obtain rfl := Except.ok.inj hhistory
      obtain ⟨newer, hnewer⟩ := prefix_after (empty.after run) later oid
      have hstill : oid ∈ ((empty.after run).after later).ids :=
        (mem_ids_after _ later oid).mpr (Or.inr hmem)
      exact ⟨numbered_after run oid, newer, by rw [hlater, history_eq, if_pos hstill, hnewer]⟩
    · cases hhistory
  · by_cases hmem : oid ∈ (empty.after run).ids
    · rw [if_pos hmem]
      rcases hknown.mp hmem with ⟨commit, hcommit, record, hrecord, hoid⟩ | hnone
      · simpa using ⟨commit, hcommit, record, hrecord, hoid⟩
      · exact absurd hnone List.not_mem_nil
    · rw [if_neg hmem]
      refine ⟨fun _ commit hcommit record hrecord hoid => ?_, fun _ => ⟨_, rfl⟩⟩
      exact hmem (hknown.mpr (Or.inl ⟨commit, hcommit, record, hrecord, hoid⟩))
  · intro record hfetch
    have hcurrent := fetch_eq_ok_iff.mp hfetch
    obtain ⟨earlier, hearlier⟩ := recordsOf_of_current? hcurrent
    exact ⟨earlier, by rw [if_pos (mem_ids_of_current? hcurrent), hearlier]⟩

end Store

end Remodel
