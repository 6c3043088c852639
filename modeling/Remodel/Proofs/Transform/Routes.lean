import Mathlib.Data.List.Chain
import Remodel.Proofs.Transform.Influence

/-!
# Routes through temporary fields

A field reaches another one along a route (`Route`): a list of steps of which the first reads the
field and the last writes the other one, and each step between writes a temporary field that the
next one reads.  The steps of a route may stand in any order in the description, and more than once
in the route.

The connections of a description list, for every field of a type, the fields to which a route leads
and no others (`connections_listsRoutes`).  Temporary fields may form a circle, so a route may be of
any length; the search comes to its end nevertheless.  There is a route exactly if the one field
feeds the other (`feeds_iff_exists_route`).
-/

namespace Remodel.Description

variable {steps : List Step} {field target : String}

/-! ## Routes -/

/-- A step writes a temporary field that another one reads. -/
def HandsOn (step next : Step) : Prop :=
  ∃ middle, step.target = some middle ∧ isTemporary middle = true ∧ middle ∈ next.sources

/-- Steps along which a field reaches another one. -/
structure Route (steps : List Step) (field target : String) (route : List Step) : Prop where
  within : route ⊆ steps
  linked : route.IsChain HandsOn
  reads : ∃ first ∈ route.head?, field ∈ first.sources
  writes : ∃ last ∈ route.getLast?, last.target = some target

theorem Route.singleton {step : Step} (hstep : step ∈ steps) (hreads : field ∈ step.sources)
    (htarget : step.target = some target) : Route steps field target [step] where
  within := List.cons_subset.mpr ⟨hstep, List.nil_subset steps⟩
  linked := List.isChain_singleton step
  reads := ⟨step, rfl, hreads⟩
  writes := ⟨step, rfl, htarget⟩

/-- A route from a temporary field goes on from a step that writes it. -/
theorem Route.cons {step : Step} {middle : String} {route : List Step}
    (h : Route steps middle target route) (hstep : step ∈ steps) (hreads : field ∈ step.sources)
    (hmiddle : step.target = some middle) (htemporary : isTemporary middle = true) :
    Route steps field target (step :: route) where
  within := List.cons_subset.mpr ⟨hstep, h.within⟩
  linked := by
    obtain ⟨first, hfirst, hread⟩ := h.reads
    refine h.linked.cons fun next hnext => ?_
    obtain rfl := Option.mem_unique hfirst hnext
    exact ⟨middle, hmiddle, htemporary, hread⟩
  reads := ⟨step, rfl, hreads⟩
  writes := by
    obtain ⟨last, hlast, hwrites⟩ := h.writes
    exact ⟨last, List.mem_getLast?_cons hlast, hwrites⟩

/-- What feeds a field reaches it along a route, and conversely. -/
theorem feeds_iff_exists_route :
    Feeds steps target field ↔ ∃ route, Route steps field target route := by
  constructor
  · intro hfeeds
    induction hfeeds with
    | direct hstep hreads htarget => exact ⟨_, .singleton hstep hreads htarget⟩
    | through hstep hreads hmiddle htemporary _ ih =>
        obtain ⟨route, hroute⟩ := ih
        exact ⟨_, hroute.cons hstep hreads hmiddle htemporary⟩
  · rintro ⟨route, hwithin, hlinked, hreads, hwrites⟩
    induction route generalizing field with
    | nil =>
        obtain ⟨first, hfirst, -⟩ := hreads
        cases hfirst
    | cons step rest ih =>
        obtain ⟨hstep, hrest⟩ := List.cons_subset.mp hwithin
        obtain ⟨first, hfirst, hread⟩ := hreads
        obtain rfl : step = first := Option.some.inj hfirst
        cases rest with
        | nil =>
            obtain ⟨last, hlast, htarget⟩ := hwrites
            obtain rfl : step = last := Option.some.inj hlast
            exact .direct hstep hread htarget
        | cons next others =>
            obtain ⟨hhands, hchain⟩ := List.isChain_cons_cons.mp hlinked
            obtain ⟨middle, hmiddle, htemporary, hnext⟩ := hhands
            have hfeeds : Feeds steps target middle :=
              ih hrest hchain ⟨next, rfl, hnext⟩ hwrites
            exact .through hstep hread hmiddle htemporary hfeeds

/-! ## Connections -/

/-- A table has the fields of a type as its keys, each once, and under each of them, in ascending
order, the fields to which a route leads from it, temporary fields apart. -/
structure ListsRoutes (steps : List Step) (source : Descriptor)
    (table : List (String × List String)) : Prop where
  once : (table.map Prod.fst).Nodup
  keys : ∀ field, field ∈ table.map Prod.fst ↔ field ∈ source.fieldNames
  ascending : ∀ entry ∈ table, entry.2.Pairwise (· < ·)
  targets : ∀ entry ∈ table, ∀ target, target ∈ entry.2 ↔
    isTemporary target = false ∧ ∃ route, Route steps entry.1 target route

theorem eq_influenced_of_mem_connections {description : Description} {source : Descriptor}
    {entry : String × List String} (h : entry ∈ description.connections source) :
    entry.2 = description.influenced entry.1 := by
  have hlookup := (Table.ascending_ofList _).mem_iff_lookup.mp h
  rw [Table.lookup_ofList_map] at hlookup
  split at hlookup
  · exact (Option.some.inj hlookup).symm
  · cases hlookup

/-- **The connections are what routes lead to.**  For every description and every source type, the
search for what a field influences gets to its end, where no name is left to look at, and gives what
it has reached there; and what the connections list for a field are the fields to which a route
leads. -/
theorem connections_listsRoutes (description : Description) (source : Descriptor) :
    (∀ field, ∃ last, Search.Explores (links description.steps) (.start field) last ∧
      last.next (links description.steps) = none ∧
      description.influenced field = last.reached.map Prod.fst) ∧
    ListsRoutes description.steps source (description.connections source) := by
  refine ⟨fun field => ⟨(Search.start field).run _, Search.explores_run _ _, ?_, rfl⟩, ?_, ?_,
    fun entry hentry => ?_, fun entry hentry target => ?_⟩
  · rw [Search.next, Search.pending_run]
  · exact (Table.ascending_ofList _).nodup
  · exact Table.mem_keys_ofList_map _ _
  · rw [eq_influenced_of_mem_connections hentry]
    exact ascending_influenced description entry.1
  · rw [eq_influenced_of_mem_connections hentry, mem_influenced_iff, feeds_iff_exists_route]

/-- Two temporary fields that are written from each other, and a third one that is never written. -/
example :
    (Description.mk "Person" "Card" none none
      [.forward "temp.b" "title", .trim "temp.a" "temp.b", .reverse "temp.b" "temp.a",
        .forward "name" "temp.a", .concat "note" " " ["temp.c", "age"]]).connections
      ⟨"Person", none, [⟨"name", .string, true⟩, ⟨"age", .integer, true⟩]⟩ =
    [("age", ["note"]), ("name", ["title"])] := by decide +kernel

end Remodel.Description
