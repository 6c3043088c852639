import Mathlib.Data.List.Induction
import Mathlib.Data.List.Nodup
import Mathlib.Data.List.Perm.Basic
import Remodel.Proofs.Store.InPlace
import Remodel.Proofs.Store.Revisions

/-!
# What a store tells about the past

A store is asked for the records as of a time.  The answer is that of the store as it was after
the last batch up to this time, whatever was committed or refused since and whatever the clock
showed.  The store is changed in place, and a batch that is refused leaves it as it was
(`submit_eq`).

The answers of a store are known by what is chosen from the revisions of each id (`gather`): the
last revision for the present, the last one up to a time for the past.  Two stores in which the
same is chosen for every id give the same answer, since both list it by ascending id
(`gather_congr`).  What is chosen for a time that has passed never changes: a batch adds revisions
of its own time only, which is later than that of every batch before it (`Chronicle.commit`).

* `revisionAt?_eq_getLast?`, `revisionAt?_append_of_later`: the choice among revisions;
* `mem_gather`, `ascending_gather`: each matching id once, ids ascending;
* `chronicle_after`: what the revisions say about the past, after every run;
* `queryAsOf_after`: the answers about the past.
-/

namespace Remodel

namespace Store

/-! ## The choice among revisions -/

theorem mem_of_revisionAt? {revisions : List Revision} {time : Int} {revision : Revision}
    (h : revisionAt? revisions time = some revision) : revision ∈ revisions :=
  List.mem_reverse.mp (List.mem_of_find?_eq_some h)

/-- When all revisions have been made, the last one is that of the present. -/
theorem revisionAt?_eq_getLast? {revisions : List Revision} {time : Int}
    (h : ∀ revision ∈ revisions, revision.time ≤ time) :
    revisionAt? revisions time = revisions.getLast? := by
  rcases List.eq_nil_or_concat' revisions with rfl | ⟨front, last, rfl⟩
  · rfl
  · have hlast : last.time ≤ time := h last (List.mem_append_right _ (List.mem_singleton_self _))
    simp [revisionAt?, hlast]

/-- Revisions after a time do not count. -/
theorem revisionAt?_append_of_later {revisions added : List Revision} {time : Int}
    (h : ∀ revision ∈ added, time < revision.time) :
    revisionAt? (revisions ++ added) time = revisionAt? revisions time := by
  have hnone : added.reverse.find? (fun revision => revision.time ≤ time) = none := by
    rw [List.find?_eq_none]
    intro revision hrevision
    have hlater := h revision (List.mem_reverse.mp hrevision)
    rw [decide_eq_true_eq]
    omega
  rw [revisionAt?, List.reverse_append, List.find?_append, hnone, Option.none_or, revisionAt?]

/-! ## Answers -/

/-- The records that stand in the revisions chosen for each id, as far as they hold every wanted
scalar. -/
def gather (store : Store) (choose : List Revision → Option Revision)
    (criteria : List (String × Scalar)) : List Record :=
  (store.revisions.filterMap fun entry => (choose entry.2).bind Revision.record).filter
    fun record => record.satisfies criteria

theorem query_eq_gather (store : Store) (criteria : List (String × Scalar)) :
    store.query criteria = store.gather List.getLast? criteria := rfl

theorem queryAsOf_eq_gather (store : Store) (criteria : List (String × Scalar)) (time : Int) :
    store.queryAsOf criteria time = store.gather (revisionAt? · time) criteria := rfl

theorem fetch_eq_ok_iff {store : Store} {oid : String} {record : Record} :
    store.fetch oid = .ok record ↔ store.current? oid = some record := by
  unfold fetch
  cases store.current? oid <;> simp

section Answers

variable {store : Store} {choose : List Revision → Option Revision}
  {criteria : List (String × Scalar)}

/-- A record of a revision that is chosen for an entry stands under its own id. -/
theorem WellFormed.oid_of_chosen (h : store.WellFormed)
    (hchoose : ∀ {revisions revision}, choose revisions = some revision → revision ∈ revisions)
    {entry : String × List Revision} (hentry : entry ∈ store.revisions) {record : Record}
    (hchosen : (choose entry.2).bind Revision.record = some record) :
    store.revisionsOf record.oid = entry.2 ∧ entry.1 = record.oid := by
  obtain ⟨oid, revisions⟩ := entry
  obtain ⟨revision, hrevision, hrecord⟩ := Option.bind_eq_some_iff.mp hchosen
  have hlookup := h.ascending.mem_iff_lookup.mp hentry
  have hof : store.revisionsOf oid = revisions := by rw [revisionsOf, hlookup, Option.getD_some]
  have hown : record.oid = oid := h.own (hof ▸ hchoose hrevision) hrecord
  subst hown
  exact ⟨hof, rfl⟩

theorem mem_gather (h : store.WellFormed)
    (hchoose : ∀ {revisions revision}, choose revisions = some revision → revision ∈ revisions)
    {record : Record} : record ∈ store.gather choose criteria ↔
      (choose (store.revisionsOf record.oid)).bind Revision.record = some record ∧
        record.satisfies criteria = true := by
  unfold gather
  rw [List.mem_filter, List.mem_filterMap]
  refine and_congr_left fun _ => ?_
  constructor
  · rintro ⟨entry, hentry, hchosen⟩
    obtain ⟨hof, -⟩ := h.oid_of_chosen hchoose hentry hchosen
    rw [hof, hchosen]
  · intro hchosen
    -- something is chosen, so the id has an entry
    obtain ⟨revision, hrevision, -⟩ := Option.bind_eq_some_iff.mp hchosen
    have hmem := hchoose hrevision
    cases hlookup : store.revisions.lookup record.oid with
    | none =>
        rw [revisionsOf, hlookup] at hmem
        exact absurd hmem List.not_mem_nil
    | some revisions =>
        rw [revisionsOf, hlookup] at hchosen
        exact ⟨(record.oid, revisions), h.ascending.mem_iff_lookup.mpr hlookup, hchosen⟩

theorem ascending_gather (h : store.WellFormed)
    (hchoose : ∀ {revisions revision}, choose revisions = some revision → revision ∈ revisions) :
    (store.gather choose criteria).Pairwise fun a b => a.oid < b.oid := by
  have hentries : store.revisions.Pairwise fun a b => a.1 < b.1 :=
    List.pairwise_map.mp h.ascending
  refine (List.pairwise_filterMap.mpr ?_).filter _
  refine hentries.imp_of_mem ?_
  intro a b ha hb hlt first hfirst second hsecond
  rw [← (h.oid_of_chosen hchoose ha hfirst).2, ← (h.oid_of_chosen hchoose hb hsecond).2]
  exact hlt

/-- Stores in which the same is chosen for every id give the same answer. -/
theorem gather_congr {other : Store} {choose' : List Revision → Option Revision}
    (h : store.WellFormed) (h' : other.WellFormed)
    (hchoose : ∀ {revisions revision}, choose revisions = some revision → revision ∈ revisions)
    (hchoose' : ∀ {revisions revision}, choose' revisions = some revision → revision ∈ revisions)
    (hsame : ∀ oid, (choose (store.revisionsOf oid)).bind Revision.record =
      (choose' (other.revisionsOf oid)).bind Revision.record) :
    store.gather choose criteria = other.gather choose' criteria := by
  have hleft : (store.gather choose criteria).Pairwise fun a b => a.oid < b.oid :=
    ascending_gather h hchoose
  have hright : (other.gather choose' criteria).Pairwise fun a b => a.oid < b.oid :=
    ascending_gather h' hchoose'
  have hne : ∀ {a b : Record}, a.oid < b.oid → a ≠ b := by
    intro a b hlt heq
    rw [heq] at hlt
    exact String.lt_irrefl b.oid hlt
  have hperm : (store.gather choose criteria).Perm (other.gather choose' criteria) := by
    rw [List.perm_ext_iff_of_nodup (hleft.imp fun hlt => hne hlt) (hright.imp fun hlt => hne hlt)]
    intro record
    rw [mem_gather h hchoose, mem_gather h' hchoose', hsame]
  exact hperm.eq_of_pairwise
    (fun a b _ _ hab hba => absurd (String.lt_trans hab hba) (String.lt_irrefl _)) hleft hright

end Answers

/-! ## Runs -/

/-- A batch, and what the clock shows when it is committed. -/
structure Submission where
  changes : Commit
  clock : Int

/-- A submission that was committed, its time, and the store right after it. -/
structure Accepted where
  submission : Submission
  time : Int
  store : Store

/-- The store that a submission leaves, whether it is committed or refused. -/
def submit (store : Store) (submission : Submission) : Store :=
  (Altering.outcome store (InPlace.commit submission.changes submission.clock)).2

/-- The store after a run of submissions. -/
def after (store : Store) (run : List Submission) : Store := run.foldl submit store

/-- The submissions of a run that are committed, in their order. -/
def accepted (store : Store) : List Submission → List Accepted
  | [] => []
  | submission :: rest =>
    match store.commit submission.changes submission.clock with
    | .ok (after, time) => ⟨submission, time, after⟩ :: after.accepted rest
    | .error _ => store.accepted rest

/-- The last of the committed submissions whose time is not later than a given one. -/
def lastUpTo (commits : List Accepted) (time : Int) : Option Accepted :=
  (commits.filter fun commit => commit.time ≤ time).getLast?

/-- A submission that is refused leaves the store as it is. -/
theorem submit_eq (store : Store) (submission : Submission) :
    store.submit submission =
      match store.commit submission.changes submission.clock with
      | .ok (after, _) => after
      | .error _ => store := by
  rw [submit, outcome_commit]
  cases store.commit submission.changes submission.clock <;> rfl

theorem after_concat (store : Store) (run : List Submission) (last : Submission) :
    store.after (run ++ [last]) = (store.after run).submit last := by
  simp [after]

theorem accepted_append (store : Store) (first second : List Submission) :
    store.accepted (first ++ second) =
      store.accepted first ++ (store.after first).accepted second := by
  induction first generalizing store with
  | nil => rfl
  | cons submission rest ih =>
      rw [List.cons_append, accepted, accepted, after, List.foldl_cons, submit_eq]
      cases store.commit submission.changes submission.clock with
      | error fault => exact ih store
      | ok result => exact congrArg (_ :: ·) (ih result.1)

/-- What is refused might as well not have been submitted. -/
theorem after_accepted (store : Store) (run : List Submission) :
    store.after ((store.accepted run).map Accepted.submission) = store.after run ∧
      store.accepted ((store.accepted run).map Accepted.submission) = store.accepted run := by
  induction run generalizing store with
  | nil => exact ⟨rfl, rfl⟩
  | cons submission rest ih =>
      cases hcommit : store.commit submission.changes submission.clock with
      | error fault => simpa [accepted, after, submit_eq, hcommit] using ih store
      | ok result => simpa [accepted, after, submit_eq, hcommit] using ih result.1

/-! ## The past -/

/-- What the revisions of a store say about every time is what the store after the last batch up
to that time said about the present. -/
structure Chronicle (commits : List Accepted) (store : Store) : Prop where
  wellFormed : store.WellFormed
  ascending : (commits.map Accepted.time).Pairwise (· < ·)
  notLater : ∀ commit ∈ commits, ∃ last, store.lastTime = some last ∧ commit.time ≤ last
  states : ∀ commit ∈ commits, commit.store.WellFormed
  past : ∀ oid time, (revisionAt? (store.revisionsOf oid) time).bind Revision.record =
    (lastUpTo commits time).bind fun commit => commit.store.current? oid

theorem chronicle_empty : Chronicle [] empty where
  wellFormed := wellFormed_empty
  ascending := List.Pairwise.nil
  notLater _ h := absurd h List.not_mem_nil
  states _ h := absurd h List.not_mem_nil
  past _ _ := rfl

theorem lastUpTo_concat (commits : List Accepted) (last : Accepted) (time : Int) :
    lastUpTo (commits ++ [last]) time =
      if last.time ≤ time then some last else lastUpTo commits time := by
  unfold lastUpTo
  rw [List.filter_append]
  by_cases htime : last.time ≤ time
  · simp [htime]
  · simp [htime]

section Committing

variable {commits : List Accepted} {store after : Store} {submission : Submission} {time : Int}

theorem Chronicle.time_lt (h : Chronicle commits store)
    (hcommit : store.commit submission.changes submission.clock = .ok (after, time))
    {commit : Accepted} (hmem : commit ∈ commits) : commit.time < time := by
  obtain ⟨-, htime, -⟩ := commit_eq_ok_iff.mp hcommit
  obtain ⟨last, hlast, hle⟩ := h.notLater commit hmem
  have hlt := lt_nextTime hlast submission.clock
  omega

/-- A batch is the present from its time on, and changes nothing before. -/
theorem Chronicle.past_commit (h : Chronicle commits store)
    (hcommit : store.commit submission.changes submission.clock = .ok (after, time))
    (oid : String) (instant : Int) :
    (revisionAt? (after.revisionsOf oid) instant).bind Revision.record =
      (lastUpTo (commits ++ [⟨submission, time, after⟩]) instant).bind
        fun commit => commit.store.current? oid := by
  have hafter : after.WellFormed := h.wellFormed.commit hcommit
  obtain ⟨-, -, happly⟩ := commit_eq_ok_iff.mp hcommit
  rw [lastUpTo_concat]
  by_cases hle : time ≤ instant
  · -- from its time on: all revisions have been made
    have hmade : ∀ revision ∈ after.revisionsOf oid, revision.time ≤ instant := by
      intro revision hrevision
      obtain ⟨last, hlast, hrevisionTime⟩ := hafter.notLater hrevision
      have hnow : after.lastTime = some time := by rw [happly]; rfl
      obtain rfl := Option.some.inj (hlast.symm.trans hnow)
      omega
    rw [if_pos hle, revisionAt?_eq_getLast? hmade]
    rfl
  · -- before: the new revisions are later
    obtain ⟨added, hadded, hnew⟩ := appends_apply store submission.changes time oid
    have hlater : ∀ revision ∈ added, instant < revision.time := by
      intro revision hrevision
      have htime := (hnew revision hrevision).1
      omega
    rw [if_neg hle, happly, hadded, revisionAt?_append_of_later hlater, h.past]

theorem Chronicle.commit (h : Chronicle commits store)
    (hcommit : store.commit submission.changes submission.clock = .ok (after, time)) :
    Chronicle (commits ++ [⟨submission, time, after⟩]) after where
  wellFormed := h.wellFormed.commit hcommit
  ascending := by
    rw [List.map_append, List.pairwise_append]
    refine ⟨h.ascending, List.pairwise_singleton _ _, ?_⟩
    intro earlier hearlier later hlater
    obtain ⟨commit, hmem, rfl⟩ := List.mem_map.mp hearlier
    rw [List.mem_singleton.mp hlater]
    exact h.time_lt hcommit hmem
  notLater := by
    intro commit hmem
    obtain ⟨-, -, happly⟩ := commit_eq_ok_iff.mp hcommit
    refine ⟨time, by rw [happly]; rfl, ?_⟩
    rcases List.mem_append.mp hmem with hold | hnew
    · exact Int.le_of_lt (h.time_lt hcommit hold)
    · exact Int.le_of_eq (congrArg Accepted.time (List.mem_singleton.mp hnew))
  states := by
    intro commit hmem
    rcases List.mem_append.mp hmem with hold | hnew
    · exact h.states commit hold
    · rw [List.mem_singleton.mp hnew]
      exact h.wellFormed.commit hcommit
  past := h.past_commit hcommit

end Committing

theorem chronicle_after (run : List Submission) :
    Chronicle (empty.accepted run) (empty.after run) := by
  induction run using List.reverseRecOn with
  | nil => exact chronicle_empty
  | append_singleton run last ih =>
      rw [after_concat, accepted_append, submit_eq, accepted]
      cases hcommit : (empty.after run).commit last.changes last.clock with
      | error fault =>
          dsimp only
          rw [accepted, List.append_nil]
          exact ih
      | ok result => exact ih.commit hcommit

/-- **A question about the past is answered as it was then.**  The answer is that of the store
right after the last committed batch whose time is not later, and empty if there is none; it lists
each live record that matches once, by ascending id.  The times of committed batches ascend
whatever the clock shows, and what is refused makes no difference. -/
theorem queryAsOf_after (run : List Submission) (criteria : List (String × Scalar))
    (time : Int) :
    (empty.after run).queryAsOf criteria time =
        (match lastUpTo (empty.accepted run) time with
          | some last => last.store.query criteria
          | none => []) ∧
      (((empty.after run).queryAsOf criteria time).map Record.oid).Pairwise (· < ·) ∧
      (∀ record, record ∈ (empty.after run).queryAsOf criteria time ↔
        ∃ last, lastUpTo (empty.accepted run) time = some last ∧
          last.store.fetch record.oid = .ok record ∧ record.satisfies criteria = true) ∧
      ((empty.accepted run).map Accepted.time).Pairwise (· < ·) ∧
      empty.after ((empty.accepted run).map Accepted.submission) = empty.after run ∧
      empty.accepted ((empty.accepted run).map Accepted.submission) = empty.accepted run := by
  have h := chronicle_after run
  have hchoose : ∀ {revisions revision}, revisionAt? revisions time = some revision →
      revision ∈ revisions := fun hchosen => mem_of_revisionAt? hchosen
  refine ⟨?_, ?_, ?_, h.ascending, after_accepted empty run⟩
  · rw [queryAsOf_eq_gather]
    cases hlast : lastUpTo (empty.accepted run) time with
    | none =>
        refine gather_congr h.wellFormed wellFormed_empty hchoose List.mem_of_getLast? fun oid => ?_
        rw [h.past, hlast]
        rfl
    | some last =>
        have hmem : last ∈ empty.accepted run :=
          (List.mem_filter.mp (List.mem_of_getLast? hlast)).1
        dsimp only
        rw [query_eq_gather]
        refine gather_congr h.wellFormed (h.states last hmem) hchoose List.mem_of_getLast?
          fun oid => ?_
        rw [h.past, hlast]
        rfl
  · rw [List.pairwise_map]
    exact ascending_gather h.wellFormed hchoose
  · intro record
    rw [queryAsOf_eq_gather, mem_gather h.wellFormed hchoose, h.past, Option.bind_eq_some_iff]
    simp only [fetch_eq_ok_iff, ← exists_and_right, and_assoc]

end Store

end Remodel
