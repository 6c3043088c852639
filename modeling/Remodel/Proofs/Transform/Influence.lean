import Mathlib.Logic.Relation
import Remodel.Proofs.Table
import Remodel.Transform.Connections

/-!
# Influence

A name feeds a target field when some step reads it and writes the field, or writes a temporary
field that feeds the field in turn (`Feeds`).  This says where values can go without saying when:
the order of the steps does not matter to it.

The search for what a field influences ends, whatever circles the temporary fields form
(`Search.explores_run`, `Search.pending_run`), and what it has reached then are the fields that the
field feeds, temporary ones apart (`mem_influenced_iff`).

## Strategy

* `targets (links steps) name` are the targets of the steps that read the name
  (`mem_targets_links`), so that the rest is about rounds over any table of links.
* Nothing is found that is not fed: the names on the stack and those reached are fed by the field
  that the search started from (`Search.Sound`).
* Nothing is left out: what a name looked at is linked to is on the stack, looked at or reached
  (`Search.Thorough`).  When the stack is empty, the names looked at are therefore closed under
  temporary links.

Both are kept by a round, and so by the whole search (`Search.keeps_run`).
-/

namespace Remodel.Description

variable {steps : List Step} {table : List (String × NameSet)}

/-- A value under the name can reach the target field. -/
inductive Feeds (steps : List Step) (target : String) : String → Prop
  | direct {step : Step} {name : String} (hstep : step ∈ steps) (hreads : name ∈ step.sources)
      (htarget : step.target = some target) : Feeds steps target name
  | through {step : Step} {name middle : String} (hstep : step ∈ steps)
      (hreads : name ∈ step.sources) (hmiddle : step.target = some middle)
      (htemporary : isTemporary middle = true) (hfeeds : Feeds steps target middle) :
      Feeds steps target name

/-- What feeds a temporary field feeds what this one feeds. -/
theorem Feeds.trans {middle target name : String} (h : Feeds steps middle name)
    (htemporary : isTemporary middle = true) (hmiddle : Feeds steps target middle) :
    Feeds steps target name := by
  induction h with
  | direct hstep hreads htarget => exact .through hstep hreads htarget htemporary hmiddle
  | through hstep hreads hwritten hwrittenTemporary _ ih =>
      exact .through hstep hreads hwritten hwrittenTemporary ih

/-! ## Links -/

namespace Search

theorem mem_targets_iff {name target : String} :
    target ∈ targets table name ↔
      (((table.lookup name).getD []).lookup target).isSome = true :=
  Table.mem_keys_iff_isSome_lookup

theorem mem_targets_insert {source target name other : String} :
    other ∈ targets
        (Table.insert source (Table.insert target () ((table.lookup source).getD [])) table) name ↔
      other ∈ targets table name ∨ name = source ∧ other = target := by
  rw [mem_targets_iff, mem_targets_iff, Table.lookup_insert]
  by_cases hname : name = source
  · subst hname
    rw [if_pos rfl, Option.getD_some, Table.lookup_insert]
    by_cases hother : other = target <;> simp [hother]
  · simp [hname]

theorem mem_targets_linkTarget {sources : List String} {target name other : String} :
    other ∈ targets (linkTarget target table sources) name ↔
      other ∈ targets table name ∨ name ∈ sources ∧ other = target := by
  induction sources generalizing table with
  | nil => simp [linkTarget]
  | cons source rest ih =>
      have hstep := @ih
        (Table.insert source (Table.insert target () ((table.lookup source).getD [])) table)
      rw [mem_targets_insert] at hstep
      rw [List.mem_cons, or_and_right, ← or_assoc]
      exact hstep

theorem mem_targets_linkStep {step : Step} {name target : String} :
    target ∈ targets (linkStep table step) name ↔
      target ∈ targets table name ∨ name ∈ step.sources ∧ step.target = some target := by
  rw [linkStep]
  cases hwritten : step.target with
  | none => simp
  | some written => rw [mem_targets_linkTarget, Option.some_inj, eq_comm]

/-- A name is linked to what the steps write that read it. -/
theorem mem_targets_links {name target : String} :
    target ∈ targets (links steps) name ↔
      ∃ step ∈ steps, name ∈ step.sources ∧ step.target = some target := by
  suffices hfold : ∀ table : List (String × NameSet),
      target ∈ targets (steps.foldl linkStep table) name ↔
        target ∈ targets table name ∨
          ∃ step ∈ steps, name ∈ step.sources ∧ step.target = some target by
    have hlinks := hfold []
    rwa [or_iff_right (show target ∉ targets [] name from List.not_mem_nil)] at hlinks
  induction steps with
  | nil => simp
  | cons step rest ih =>
      intro table
      rw [List.foldl_cons, ih, mem_targets_linkStep, or_assoc]
      simp

/-! ## Rounds -/

/-- A search gets from one state to another in some number of rounds. -/
def Explores (table : List (String × NameSet)) : Search → Search → Prop :=
  Relation.ReflTransGen fun search following => search.next table = some following

theorem run_of_next_eq_none {search : Search} (h : search.next table = none) :
    search.run table = search := by
  rw [run]
  split
  · rfl
  · rename_i hnext
    rw [h] at hnext
    cases hnext

theorem run_of_next_eq_some {search following : Search} (h : search.next table = some following) :
    search.run table = following.run table := by
  rw [run]
  split
  · rename_i hnext
    rw [h] at hnext
    cases hnext
  · rename_i other hnext
    rw [h] at hnext
    cases hnext
    rfl

/-- The search gets to its end in some number of rounds. -/
theorem explores_run (table : List (String × NameSet)) (search : Search) :
    Explores table search (search.run table) := by
  induction search using run.induct table with
  | case1 search hnext =>
      rw [run_of_next_eq_none hnext]
      exact .refl
  | case2 search following hnext ih =>
      rw [run_of_next_eq_some hnext]
      exact ih.head hnext

/-- At the end no name is left to look at. -/
theorem pending_run (table : List (String × NameSet)) (search : Search) :
    (search.run table).pending = [] := by
  induction search using run.induct table with
  | case1 search hnext =>
      rw [run_of_next_eq_none hnext]
      cases hpending : search.pending with
      | nil => rfl
      | cons name rest =>
          simp only [next, hpending] at hnext
          split at hnext <;> cases hnext
  | case2 search following hnext ih =>
      rwa [run_of_next_eq_some hnext]

/-- What every round keeps holds at the end of the search. -/
theorem keeps_run (holds : Search → Prop)
    (hround : ∀ search following, holds search → search.next table = some following →
      holds following) {search : Search} (h : holds search) : holds (search.run table) := by
  have hrounds := explores_run table search
  generalize search.run table = last at hrounds ⊢
  induction hrounds with
  | refl => exact h
  | tail _ hnext ih => exact hround _ _ ih hnext

/-- A round either drops a name that was looked at, or looks at it: the stack and what is reached
then hold what they held, and the links of the name. -/
theorem next_cases {search following : Search} (h : search.next table = some following) :
    ∃ name rest, search.pending = name :: rest ∧
      (name ∈ search.visited ∧ following = { search with pending := rest } ∨
        name ∉ search.visited ∧
          following = (targets table name).foldl meet
            ⟨rest, name :: search.visited, search.reached⟩) := by
  obtain ⟨pending, visited, reached⟩ := search
  cases pending with
  | nil => cases h
  | cons name rest =>
      refine ⟨name, rest, rfl, ?_⟩
      simp only [next, List.contains_iff_mem] at h
      split at h
      · rename_i hseen
        exact Or.inl ⟨hseen, (Option.some.inj h).symm⟩
      · rename_i hnew
        exact Or.inr ⟨hnew, (Option.some.inj h).symm⟩

theorem mem_pending_foldl_meet {names : List String} {search : Search} {name : String} :
    name ∈ (names.foldl meet search).pending ↔
      name ∈ search.pending ∨ name ∈ names ∧ isTemporary name = true := by
  induction names generalizing search with
  | nil => simp
  | cons first rest ih =>
      rw [List.foldl_cons, ih, meet]
      by_cases hfirst : isTemporary first = true
      · rw [if_pos hfirst]
        by_cases hname : name = first <;> simp [hname, hfirst]
      · rw [if_neg hfirst]
        by_cases hname : name = first
        · simp [hname, hfirst]
        · simp [hname]

theorem mem_reached_foldl_meet {names : List String} {search : Search} {name : String} :
    name ∈ (names.foldl meet search).reached.map Prod.fst ↔
      name ∈ search.reached.map Prod.fst ∨ name ∈ names ∧ isTemporary name = false := by
  induction names generalizing search with
  | nil => simp
  | cons first rest ih =>
      rw [List.foldl_cons, ih, meet]
      by_cases hfirst : isTemporary first = true
      · rw [if_pos hfirst]
        by_cases hname : name = first
        · simp [hname, hfirst]
        · simp [hname]
      · rw [if_neg hfirst, Table.mem_keys_insert]
        by_cases hname : name = first <;> simp [hname, hfirst]

theorem ascending_foldl_meet (names : List String) {search : Search}
    (h : Table.Ascending search.reached) : Table.Ascending (names.foldl meet search).reached := by
  induction names generalizing search with
  | nil => exact h
  | cons first rest ih =>
      rw [List.foldl_cons]
      apply ih
      rw [meet]
      split
      · exact h
      · exact h.insert first ()

theorem ascending_next {search following : Search} (h : Table.Ascending search.reached)
    (hnext : search.next table = some following) : Table.Ascending following.reached := by
  obtain ⟨name, rest, -, ⟨-, rfl⟩ | ⟨-, rfl⟩⟩ := next_cases hnext
  · exact h
  · exact ascending_foldl_meet _ h

/-! ## What is found is fed -/

/-- The names on the stack are the field that the search started from and temporary ones that it
feeds, and what is reached are other fields that it feeds. -/
structure Sound (steps : List Step) (field : String) (search : Search) : Prop where
  pending : ∀ name ∈ search.pending, name = field ∨ isTemporary name = true ∧ Feeds steps name field
  reached : ∀ name ∈ search.reached.map Prod.fst,
    isTemporary name = false ∧ Feeds steps name field

theorem sound_start (steps : List Step) (field : String) : Sound steps field (start field) where
  pending := fun _ hname => Or.inl (List.mem_singleton.mp hname)
  reached := fun _ hname => by cases hname

theorem Sound.next {field : String} {search following : Search} (h : Sound steps field search)
    (hnext : search.next (links steps) = some following) : Sound steps field following := by
  obtain ⟨name, rest, hpending, ⟨-, rfl⟩ | ⟨-, rfl⟩⟩ := next_cases hnext
  · exact ⟨fun other hother => h.pending other (hpending ▸ List.mem_cons_of_mem name hother),
      h.reached⟩
  · -- what the name is linked to is fed by it, and it is the field or fed by the field
    have hfed : ∀ other ∈ targets (links steps) name, Feeds steps other field := by
      intro other hother
      obtain ⟨step, hstep, hreads, htarget⟩ := mem_targets_links.mp hother
      have hdirect : Feeds steps other name := .direct hstep hreads htarget
      rcases h.pending name (hpending ▸ List.mem_cons_self ..) with rfl | ⟨htemporary, hname⟩
      · exact hdirect
      · exact hname.trans htemporary hdirect
    constructor
    · intro other hother
      rcases mem_pending_foldl_meet.mp hother with hold | ⟨hlinked, htemporary⟩
      · exact h.pending other (hpending ▸ List.mem_cons_of_mem name hold)
      · exact Or.inr ⟨htemporary, hfed other hlinked⟩
    · intro other hother
      rcases mem_reached_foldl_meet.mp hother with hold | ⟨hlinked, htarget⟩
      · exact h.reached other hold
      · exact ⟨htarget, hfed other hlinked⟩

/-! ## What is fed is found -/

/-- A name was looked at or will be. -/
def Knows (search : Search) (name : String) : Prop :=
  name ∈ search.pending ∨ name ∈ search.visited

/-- The field was looked at or will be, and nothing that a name looked at is linked to was left
out. -/
structure Thorough (table : List (String × NameSet)) (field : String) (search : Search) : Prop where
  knows : search.Knows field
  passes : ∀ name ∈ search.visited, ∀ target ∈ targets table name,
    isTemporary target = true → search.Knows target
  reaches : ∀ name ∈ search.visited, ∀ target ∈ targets table name,
    isTemporary target = false → target ∈ search.reached.map Prod.fst

theorem thorough_start (table : List (String × NameSet)) (field : String) :
    Thorough table field (start field) where
  knows := Or.inl (List.mem_singleton_self field)
  passes := fun _ hname => by cases hname
  reaches := fun _ hname => by cases hname

/-- A name taken off the stack is known as before if it was looked at. -/
theorem Knows.mono {search following : Search} {name other : String} {rest : List String}
    (h : search.Knows other) (hpending : search.pending = name :: rest)
    (hrest : rest ⊆ following.pending) (hname : name ∈ following.visited)
    (hvisited : search.visited ⊆ following.visited) : following.Knows other := by
  rcases h with hother | hother
  · rw [hpending] at hother
    rcases List.mem_cons.mp hother with rfl | hother
    · exact Or.inr hname
    · exact Or.inl (hrest hother)
  · exact Or.inr (hvisited hother)

theorem Thorough.next {field : String} {search following : Search}
    (h : Thorough table field search) (hnext : search.next table = some following) :
    Thorough table field following := by
  obtain ⟨name, rest, hpending, ⟨hseen, rfl⟩ | ⟨-, rfl⟩⟩ := next_cases hnext
  · have hknows : ∀ other, search.Knows other →
        ({ search with pending := rest } : Search).Knows other := fun _ hother =>
      hother.mono hpending (List.Subset.refl _) hseen (List.Subset.refl _)
    exact ⟨hknows field h.knows,
      fun origin horigin target htarget htemporary =>
        hknows target (h.passes origin horigin target htarget htemporary), h.reaches⟩
  · have hvisited := visited_foldl_meet (targets table name)
      ⟨rest, name :: search.visited, search.reached⟩
    have hknows : ∀ other, search.Knows other → ((targets table name).foldl meet
        ⟨rest, name :: search.visited, search.reached⟩).Knows other := fun _ hother =>
      hother.mono hpending (fun _ hrest => mem_pending_foldl_meet.mpr (Or.inl hrest))
        (hvisited ▸ List.mem_cons_self ..) (hvisited ▸ List.subset_cons_self ..)
    refine ⟨hknows field h.knows, ?_, ?_⟩
    · intro origin horigin target htarget htemporary
      rw [hvisited, List.mem_cons] at horigin
      rcases horigin with rfl | hbefore
      · exact Or.inl (mem_pending_foldl_meet.mpr (Or.inr ⟨htarget, htemporary⟩))
      · exact hknows target (h.passes origin hbefore target htarget htemporary)
    · intro origin horigin target htarget hfinal
      rw [hvisited, List.mem_cons] at horigin
      refine mem_reached_foldl_meet.mpr ?_
      rcases horigin with rfl | hbefore
      · exact Or.inr ⟨htarget, hfinal⟩
      · exact Or.inl (h.reaches origin hbefore target htarget hfinal)

/-- A search at its end has reached all fields, temporary ones apart, that a name looked at
feeds. -/
theorem Thorough.mem_reached {field : String} {search : Search}
    (h : Thorough (Description.links steps) field search) (hend : search.pending = [])
    {target name : String} (htarget : isTemporary target = false)
    (hfeeds : Feeds steps target name) (hname : name ∈ search.visited) :
    target ∈ search.reached.map Prod.fst := by
  induction hfeeds with
  | direct hstep hreads hwrites =>
      exact h.reaches _ hname target (mem_targets_links.mpr ⟨_, hstep, hreads, hwrites⟩) htarget
  | through hstep hreads hmiddle htemporary _ ih =>
      have hlinked := mem_targets_links.mpr ⟨_, hstep, hreads, hmiddle⟩
      rcases h.passes _ hname _ hlinked htemporary with hpending | hvisited
      · rw [hend] at hpending
        cases hpending
      · exact ih hvisited

end Search

/-! ## Connections -/

/-- The fields that a field influences are in ascending order, each once. -/
theorem ascending_influenced (description : Description) (field : String) :
    (description.influenced field).Pairwise (· < ·) :=
  Search.keeps_run (fun search => Table.Ascending search.reached)
    (fun _ _ => Search.ascending_next) List.Pairwise.nil

/-- A field influences what it feeds, temporary fields apart, and nothing else. -/
theorem mem_influenced_iff {description : Description} {target field : String} :
    target ∈ description.influenced field ↔
      isTemporary target = false ∧ Feeds description.steps target field := by
  have hend := Search.pending_run (links description.steps) (.start field)
  constructor
  · intro hmem
    exact (Search.keeps_run _ (fun _ _ => Search.Sound.next)
      (Search.sound_start description.steps field)).reached target hmem
  · rintro ⟨htarget, hfeeds⟩
    have hthorough := Search.keeps_run _ (fun _ _ => Search.Thorough.next)
      (Search.thorough_start (links description.steps) field)
    refine hthorough.mem_reached hend htarget hfeeds ?_
    rcases hthorough.knows with hpending | hvisited
    · rw [hend] at hpending
      cases hpending
    · exact hvisited

/-- The connections list for each field of the type what it influences. -/
theorem lookup_connections (description : Description) {source : Descriptor} {field : String}
    (hfield : field ∈ source.fieldNames) :
    (description.connections source).lookup field = some (description.influenced field) := by
  rw [connections, Table.lookup_ofList_map, if_pos hfield]

end Remodel.Description
