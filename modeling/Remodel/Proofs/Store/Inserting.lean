import Mathlib.Data.List.Induction
import Remodel.Proofs.Store.Revisions

/-!
# Inserting records

A batch is checked against the store before it, and not against itself.  So a record that is
inserted is neither updated nor deleted by the same batch, but another record may be inserted
under its id after it, and then only the last one stays live:

* `refusal?_eq_none_iff`: what the check of a batch says;
* `current?_apply_of_insert`: what is live under an inserted id is the last record inserted there;
* `fetch_inserted`: all inserts of a batch stay live with their entries exactly if those under the
  same id have the same entries.
-/

namespace Remodel

namespace Store

/-- The last of the records with an id. -/
def lastUnder (records : List Record) (oid : String) : Option Record :=
  (records.filter fun record => record.oid = oid).getLast?

variable {store : Store} {time : Int} {changes : Commit}

/-! ## The last record under an id -/

theorem lastUnder_concat (records : List Record) (record : Record) (oid : String) :
    lastUnder (records ++ [record]) oid =
      if record.oid = oid then some record else lastUnder records oid := by
  unfold lastUnder
  rw [List.filter_append]
  by_cases hoid : record.oid = oid
  · simp [hoid]
  · simp [hoid]

theorem exists_lastUnder {records : List Record} {record : Record} (h : record ∈ records) :
    ∃ last, lastUnder records record.oid = some last ∧ last ∈ records ∧
      last.oid = record.oid := by
  have hmem : record ∈ records.filter fun other => other.oid = record.oid :=
    List.mem_filter.mpr ⟨h, by simp⟩
  have hne : (records.filter fun other => other.oid = record.oid) ≠ [] := List.ne_nil_of_mem hmem
  have hlast := List.getLast_mem hne
  rw [List.mem_filter, decide_eq_true_eq] at hlast
  exact ⟨_, List.getLast?_eq_some_getLast hne, hlast⟩

/-! ## What single changes leave -/

theorem current?_push (store : Store) (oid : String) (revision : Revision) (name : String) :
    (store.push oid revision).current? name =
      if name = oid then revision.record else store.current? name := by
  unfold current?
  rw [revisionsOf_push]
  split
  · simp
  · rfl

/-- After several records are written, the last one under an id is live. -/
theorem current?_writeAll (store : Store) (time : Int) (records : List Record) {oid : String}
    {last : Record} (hlast : lastUnder records oid = some last) : ∃ version,
      (records.foldl (writeRecord time) store).current? oid =
        some { last with version := version } := by
  induction records using List.reverseRecOn with
  | nil => cases hlast
  | append_singleton records record ih =>
      rw [lastUnder_concat] at hlast
      rw [List.foldl_append, List.foldl_cons, List.foldl_nil, writeRecord, current?_push]
      by_cases hoid : record.oid = oid
      · rw [if_pos hoid] at hlast
        obtain rfl := Option.some.inj hlast
        exact ⟨_, if_pos hoid.symm⟩
      · rw [if_neg hoid] at hlast
        rw [if_neg (Ne.symm hoid)]
        exact ih hlast

theorem current?_deleteAll {oid : String} {deletes : List String} (h : oid ∉ deletes) :
    (deletes.foldl (deleteRecord time) store).current? oid = store.current? oid := by
  induction deletes generalizing store with
  | nil => rfl
  | cons deleted rest ih =>
      rw [List.mem_cons, not_or] at h
      rw [List.foldl_cons, ih h.2, deleteRecord, current?_push, if_neg h.1]

/-! ## Accepted batches -/

/-- A batch is accepted if what it inserts is not live and what it changes is. -/
theorem refusal?_eq_none_iff : store.refusal? changes = none ↔
    (∀ record ∈ changes.inserts, store.current? record.oid = none) ∧
      (∀ record ∈ changes.updates, store.current? record.oid ≠ none) ∧
        ∀ oid ∈ changes.deletes, store.current? oid ≠ none := by
  unfold refusal?
  simp only [Option.or_eq_none_iff, Option.map_eq_none_iff, List.find?_eq_none, List.mem_append,
    List.forall_mem_map, or_imp, forall_and, Bool.not_eq_true', Bool.not_eq_false,
    Option.isSome_iff_ne_none, ne_eq, not_not]

/-- What is live under an inserted id is the last record that the batch inserts there. -/
theorem current?_apply_of_insert (haccepted : store.refusal? changes = none) {record : Record}
    (hrecord : record ∈ changes.inserts) (time : Int) :
    ∃ last version, lastUnder changes.inserts record.oid = some last ∧
      (store.apply changes time).current? record.oid = some { last with version := version } := by
  obtain ⟨hinserts, hupdates, hdeletes⟩ := refusal?_eq_none_iff.mp haccepted
  have hdead := hinserts record hrecord
  obtain ⟨last, hlast, -⟩ := exists_lastUnder hrecord
  -- an update under this id would need a live record
  have hnone : (changes.updates.filter fun update => update.oid = record.oid) = [] := by
    rw [List.filter_eq_nil_iff]
    intro update hupdate hoid
    rw [decide_eq_true_eq] at hoid
    exact hupdates update hupdate (hoid ▸ hdead)
  have hkept : record.oid ∉ changes.deletes := fun hmem => hdeletes record.oid hmem hdead
  have hwritten : lastUnder (changes.inserts ++ changes.updates) record.oid = some last := by
    rw [lastUnder, List.filter_append, hnone, List.append_nil]
    exact hlast
  obtain ⟨version, hcurrent⟩ := current?_writeAll store time _ hwritten
  refine ⟨last, version, hlast, ?_⟩
  change (changes.deletes.foldl (deleteRecord time) _).current? record.oid = _
  rw [current?_deleteAll hkept, hcurrent]

/-- **What an accepted batch inserts stays live unless the batch inserts something else under the
same id.**  Under each inserted id the record fetched next has the entries of the last record
inserted there; so all of the inserted records are kept exactly if those with the same id have the
same entries. -/
theorem fetch_inserted {clock : Int} {after : Store}
    (hcommit : store.commit changes clock = .ok (after, time)) :
    (∀ record ∈ changes.inserts, ∃ last stored,
        lastUnder changes.inserts record.oid = some last ∧
          after.fetch record.oid = .ok stored ∧ stored.entries = last.entries) ∧
      ((∀ record ∈ changes.inserts, ∃ stored,
          after.fetch record.oid = .ok stored ∧ stored.entries = record.entries) ↔
        ∀ a ∈ changes.inserts, ∀ b ∈ changes.inserts, a.oid = b.oid → a.entries = b.entries) := by
  obtain ⟨haccepted, -, rfl⟩ := commit_eq_ok_iff.mp hcommit
  have hfetch : ∀ record ∈ changes.inserts, ∃ last stored,
      lastUnder changes.inserts record.oid = some last ∧
        (store.apply changes time).fetch record.oid = .ok stored ∧
          stored.entries = last.entries := by
    intro record hrecord
    obtain ⟨last, version, hlast, hcurrent⟩ :=
      current?_apply_of_insert haccepted hrecord _
    exact ⟨last, { last with version := version }, hlast, by rw [fetch, hcurrent], rfl⟩
  refine ⟨hfetch, ?_, ?_⟩
  · intro hkept a ha b hb hoid
    obtain ⟨stored, hstored, hentries⟩ := hkept a ha
    obtain ⟨stored', hstored', hentries'⟩ := hkept b hb
    rw [← hoid, hstored] at hstored'
    obtain rfl := Except.ok.inj hstored'
    exact hentries.symm.trans hentries'
  · intro hsame record hrecord
    obtain ⟨last, stored, hlast, hstored, hentries⟩ := hfetch record hrecord
    obtain ⟨found, hfound, hmem, hoid⟩ := exists_lastUnder hrecord
    obtain rfl := Option.some.inj (hlast.symm.trans hfound)
    exact ⟨stored, hstored, hentries.trans (hsame last hmem record hrecord hoid)⟩

namespace Mixed

/-- A store with two live records. -/
def start : Store := empty.apply ⟨[Record.new "a", Record.new "b"], [], []⟩ 0

def batch : Commit :=
  ⟨[(Record.new "x").put "n" (.integer 1), Record.new "y"], [(Record.new "a").put "n" (.integer 2)],
    ["b"]⟩

/-- Inserts beside an update and a deletion, while the clock is behind. -/
theorem fetch_inserted_batch :
    start.commit batch (-5) = .ok (start.apply batch 1000, 1000) ∧
      ∀ record ∈ batch.inserts, ∃ stored,
        (start.apply batch 1000).fetch record.oid = .ok stored ∧
          stored.entries = record.entries :=
  have hcommit : start.commit batch (-5) = .ok (start.apply batch 1000, 1000) := by rfl
  ⟨hcommit, (fetch_inserted hcommit).2.mpr (by decide)⟩

end Mixed

/-! ## Two records under one id -/

namespace Twice

def first : Record := (Record.new "x").put "n" (.integer 1)

def batch : Commit := ⟨[first, (Record.new "x").put "n" (.integer 2)], [], []⟩

/-- The batch is accepted, and the first of its inserts is not what is fetched next. -/
theorem insert_dropped : empty.commit batch 0 = .ok (empty.apply batch 0, 0) ∧
    first ∈ batch.inserts ∧
      ¬ ∃ stored, (empty.apply batch 0).fetch first.oid = .ok stored ∧
        stored.entries = first.entries := by
  refine ⟨by rfl, by decide, ?_⟩
  rintro ⟨stored, hstored, hentries⟩
  have hfetched : (empty.apply batch 0).fetch first.oid =
      .ok { (Record.new "x").put "n" (.integer 2) with version := 2 } := by rfl
  obtain rfl := Except.ok.inj (hfetched.symm.trans hstored)
  exact absurd hentries (by decide)

end Twice

end Store

end Remodel
