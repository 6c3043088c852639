import Remodel.Model.Descriptor
import Remodel.Transform.Description

/-!
# Connections

Which fields of the target a field of the source can influence, directly or through
temporary fields.

The steps are first brought into a table (`links`) of what is written from each name.
For every field of the source a search then goes from name to name (`Search.next`): it
takes the name that was put on the stack last, and unless it has looked at that name
before, it puts the temporary fields written from it on the stack and notes the others
as reached.  Temporary fields may be written from each other in a circle, so it is the
names looked at that bring the search to its end.

## Strategy

A round takes one name off the stack, and puts on it at most the links of that name,
which were not seen before.  So the names on the stack together with the unseen links get
fewer in every round (`Search.left_next`).
-/

namespace Remodel.Description

/-- Names in ascending order, each once. -/
abbrev NameSet := List (String × Unit)

/-- The table with a target noted under each of the sources. -/
def linkTarget (target : String) (table : List (String × NameSet)) (sources : List String) :
    List (String × NameSet) :=
  sources.foldl (fun table source =>
    Table.insert source (Table.insert target () ((table.lookup source).getD [])) table) table

/-- The table with the links of one more step. -/
def linkStep (table : List (String × NameSet)) (step : Step) : List (String × NameSet) :=
  match step.target with
  | none => table
  | some target => linkTarget target table step.sources

/-- For each name that a step reads, the fields that such steps write. -/
def links (steps : List Step) : List (String × NameSet) := steps.foldl linkStep []

/-- Where a search stands: the stack of names to look at, the names looked at, and the
fields found to be influenced. -/
structure Search where
  pending : List String
  visited : List String
  reached : NameSet
deriving DecidableEq, Repr

namespace Search

/-- The search from one field. -/
def start (field : String) : Search := ⟨[field], [], []⟩

/-- A target of the name looked at: a temporary field is looked at later, any other one is
reached. -/
def meet (search : Search) (target : String) : Search :=
  if isTemporary target then { search with pending := target :: search.pending }
  else { search with reached := Table.insert target () search.reached }

/-- What a name is linked to, in ascending order. -/
def targets (table : List (String × NameSet)) (name : String) : List String :=
  ((table.lookup name).getD []).map Prod.fst

/-- One round: the last name put on the stack is taken off it and, if that is for the
first time, looked at.  There is none if the stack is empty. -/
def next (table : List (String × NameSet)) (search : Search) : Option Search :=
  match search.pending with
  | [] => none
  | name :: rest =>
    if search.visited.contains name then some { search with pending := rest }
    else some <| (targets table name).foldl meet ⟨rest, name :: search.visited, search.reached⟩

/-- How many links the names have that were not looked at. -/
def unseen (visited : List String) : List (String × NameSet) → Nat
  | [] => 0
  | (name, linked) :: rest =>
    (if visited.contains name then 0 else linked.length) + unseen visited rest

/-- No more rounds than this are left. -/
def left (table : List (String × NameSet)) (search : Search) : Nat :=
  search.pending.length + unseen search.visited table

theorem visited_foldl_meet (names : List String) (search : Search) :
    (names.foldl meet search).visited = search.visited := by
  induction names generalizing search with
  | nil => rfl
  | cons name rest ih =>
    rw [List.foldl_cons, ih, meet]
    split <;> rfl

theorem length_pending_foldl_meet_le (names : List String) (search : Search) :
    (names.foldl meet search).pending.length ≤ search.pending.length + names.length := by
  induction names generalizing search with
  | nil => exact Nat.le_refl _
  | cons name rest ih =>
    have hmeet : (search.meet name).pending.length ≤ search.pending.length + 1 := by
      rw [meet]
      split <;> simp
    have hrest := ih (search.meet name)
    rw [List.foldl_cons, List.length_cons]
    omega

theorem unseen_cons_le (name : String) (visited : List String) (table : List (String × NameSet)) :
    unseen (name :: visited) table ≤ unseen visited table := by
  induction table with
  | nil => exact Nat.le_refl _
  | cons entry rest ih =>
    obtain ⟨other, linked⟩ := entry
    have hfirst : (if (name :: visited).contains other then 0 else linked.length) ≤
        if visited.contains other then 0 else linked.length := by
      by_cases hother : visited.contains other = true
      · have hmember : (name :: visited).contains other = true := by
          rw [List.contains_cons, hother, Bool.or_true]
        rw [if_pos hmember]
        exact Nat.zero_le _
      · rw [if_neg hother]
        split <;> simp
    simp only [unseen]
    omega

/-- The links of a name are no longer among the unseen ones once it was looked at. -/
theorem length_targets_add_unseen_le {name : String} {visited : List String}
    (hnew : visited.contains name = false) (table : List (String × NameSet)) :
    (targets table name).length + unseen (name :: visited) table ≤ unseen visited table := by
  induction table with
  | nil => exact Nat.le_refl _
  | cons entry rest ih =>
    obtain ⟨other, linked⟩ := entry
    by_cases hother : name = other
    · subst hother
      have hrest := unseen_cons_le name visited rest
      have htargets : targets ((name, linked) :: rest) name = linked.map Prod.fst := by
        simp [targets]
      rw [unseen, unseen, htargets, hnew, List.length_map, List.contains_cons, beq_self_eq_true,
        Bool.true_or, if_pos rfl, if_neg Bool.false_ne_true]
      omega
    · have hlookup : targets ((other, linked) :: rest) name = targets rest name := by
        rw [targets, targets, Table.lookup_cons_of_ne linked rest hother]
      have hcontains : (name :: visited).contains other = visited.contains other := by
        simp [Ne.symm hother]
      rw [hlookup, unseen, unseen, hcontains]
      omega

/-- Every round leaves fewer rounds. -/
theorem left_next {table : List (String × NameSet)} {search following : Search}
    (h : search.next table = some following) : following.left table < search.left table := by
  obtain ⟨pending, visited, reached⟩ := search
  cases pending with
  | nil => cases h
  | cons name rest =>
    simp only [next] at h
    split at h
    · cases h
      simp only [left, List.length_cons]
      omega
    · rename_i hnew
      cases h
      have hpushed := length_pending_foldl_meet_le (targets table name)
        ⟨rest, name :: visited, reached⟩
      have hlinks := length_targets_add_unseen_le (eq_false_of_ne_true hnew) table
      simp only [left, visited_foldl_meet, List.length_cons] at hpushed ⊢
      omega

/-- The search when no name is left on the stack. -/
def run (table : List (String × NameSet)) (search : Search) : Search :=
  match _ : search.next table with
  | none => search
  | some following => following.run table
termination_by search.left table
decreasing_by exact left_next ‹_›

end Search

/-- The fields, other than temporary ones, that a field influences; ascending. -/
def influenced (description : Description) (field : String) : List String :=
  ((Search.start field).run (links description.steps)).reached.map Prod.fst

/-- For every field of the source type the target fields that it influences. -/
def connections (description : Description) (source : Descriptor) : List (String × List String) :=
  Table.ofList (source.fieldNames.map fun field => (field, description.influenced field))

end Remodel.Description
