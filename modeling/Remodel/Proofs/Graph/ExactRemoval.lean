import Remodel.Proofs.Graph.Origins

/-!
# Removals take what they are asked for

The edges of a pair, those that a description asks for and those of a file go at once, although
they are removed one by one and each removal puts the last edge into the free place.  `Takes` says
what is asked of such a removal by a property of the edges alone: those with it go, each giving
its description once, and the others stay as they are.  After every run of changes the three
removals take the edges with their properties (`removals_take_after`).

## Strategy

The tests of the removals find the nodes of types in the index; the properties here look at the
types of the nodes that an edge leads to.  In a well-formed graph they agree (`joins_iff_between`).
What a removal by a test does is known (`removed_removeWhere`), and ids, which belong to one
edge each, keep the descriptions apart (`WellFormed.takes_removeWhere`).
-/

namespace Remodel

namespace Graph

/-- An edge leads from one type to another. -/
def Between (graph : Graph) (source target : String) (edge : Edge) : Prop :=
  graph.typeAt? edge.source = some source ∧ graph.typeAt? edge.target = some target

/-- An id is the one of a description, or begins as assigned ids do if the description has
none. -/
def Admits (idStart : String) (description : Description) (id : String) : Prop :=
  match description.id with
  | some own => id = own
  | none => idStart.toList <+: id.toList

/-- Exactly the edges with a property are taken from a graph.

The others stay, each with its description, and the nodes that they lead to stay at their places;
no description of a taken edge is left.  What is given are the descriptions of the taken edges,
each once, the last edge first. -/
structure Takes (graph : Graph) (taken : Edge → Prop) (result : Graph × List Description) :
    Prop where
  stay : ∀ edge, edge ∈ result.1.edges ↔ edge ∈ graph.edges ∧ ¬ taken edge
  single : (result.1.edges.map Edge.id).Nodup
  described : ∀ edge ∈ result.1.edges, ∃ description,
    graph.describedBy? edge = some description ∧ result.1.describedBy? edge = some description
  forgotten : ∀ edge ∈ graph.edges, taken edge → result.1.describedBy? edge = none
  given : ∃ gone : List Edge, gone.reverse.Sublist graph.edges ∧
    (∀ edge, edge ∈ gone ↔ edge ∈ graph.edges ∧ taken edge) ∧
    gone.map graph.describedBy? = result.2.map some
  once : (result.2.map Description.id).Nodup
  nodes : result.1.nodes = graph.nodes
  places : result.1.places = graph.places
  assigned : result.1.assigned = graph.assigned
  idStart : result.1.idStart = graph.idStart

variable {graph : Graph}

/-! ## Properties and tests -/

theorem WellFormed.joins_iff_between (h : graph.WellFormed) {source target : String}
    {edge : Edge} : graph.joins source target edge = true ↔ graph.Between source target edge := by
  rw [joins_iff, h.places, h.places, Between]

theorem asksFor_iff_admits {description : Description} {edge : Edge} :
    graph.asksFor description edge = true ↔ Admits graph.idStart description edge.id := by
  unfold asksFor Admits
  cases description.id with
  | some own => simp
  | none => simp [isAssigned]

/-! ## Removals by a test -/

/-- The descriptions of edges have the ids of the edges. -/
theorem WellFormed.exists_descriptions (h : graph.WellFormed) {gone : List Edge}
    (hgone : ∀ edge ∈ gone, edge ∈ graph.edges) :
    gone.map graph.describedBy? = (gone.filterMap graph.describedBy?).map some ∧
      (gone.filterMap graph.describedBy?).map Description.id = (gone.map Edge.id).map some := by
  induction gone with
  | nil => exact ⟨rfl, rfl⟩
  | cons edge rest ih =>
      obtain ⟨description, hdescription, hdescribes⟩ :=
        h.described edge (hgone edge List.mem_cons_self)
      obtain ⟨hgiven, hids⟩ := ih fun other hother => hgone other (List.mem_cons_of_mem _ hother)
      simp [hdescription, hgiven, hids, hdescribes.id]

/-- A removal by a test takes the edges with the property that it tests. -/
theorem WellFormed.takes_removeWhere (h : graph.WellFormed) {chosen : Edge → Bool}
    {taken : Edge → Prop} (hchosen : ∀ edge, chosen edge = true ↔ taken edge) :
    graph.Takes taken (graph.removeWhere chosen) := by
  have hremoved := removed_removeWhere h.ids chosen
  have hperm := perm_edges_removeWhere h.ids chosen
  have hgone : ∀ edge, edge ∈ (graph.edges.filter chosen).reverse ↔
      edge ∈ graph.edges ∧ taken edge := fun edge => by
    rw [List.mem_reverse, List.mem_filter, hchosen]
  have hstay : ∀ edge, edge ∈ (graph.removeWhere chosen).1.edges ↔
      edge ∈ graph.edges ∧ ¬ taken edge := fun edge => by
    rw [hperm.mem_iff, List.mem_filter, ← hchosen, Bool.not_eq_true', Bool.not_eq_true]
  obtain ⟨hgiven, hids⟩ := h.exists_descriptions fun edge hedge => ((hgone edge).mp hedge).1
  exact {
    stay := hstay
    single := (List.nodup_append.mp (hremoved.nodup h.ids)).2.1
    described := fun edge hedge => by
      obtain ⟨description, hdescription, -⟩ := h.described edge ((hstay edge).mp hedge).1
      exact ⟨description, hdescription,
        (hremoved.describedBy?_eq h.ids hedge).trans hdescription⟩
    forgotten := fun edge hedge htaken => by
      rw [describedBy?, hremoved.lookup,
        if_pos (List.mem_map_of_mem ((hgone edge).mpr ⟨hedge, htaken⟩))]
    given := by
      refine ⟨_, ?_, hgone, ?_⟩
      · rw [List.reverse_reverse]
        exact List.filter_sublist
      · rw [hgiven, hremoved.descriptions]
    once := by
      -- the ids of the descriptions are those of different edges
      rw [hremoved.descriptions, hids]
      exact (List.nodup_append.mp (hremoved.nodup h.ids)).1.map fun _ _ => Option.some.inj
    nodes := hremoved.nodes
    places := hremoved.places
    assigned := hremoved.assigned
    idStart := hremoved.idStart }

/-! ## The three removals -/

theorem WellFormed.takes_dropBetween (h : graph.WellFormed) (source target : String) :
    graph.Takes (graph.Between source target) (graph.dropBetween source target) :=
  h.takes_removeWhere fun _ => h.joins_iff_between

theorem WellFormed.takes_remove (h : graph.WellFormed) (description : Description) :
    graph.Takes (fun edge => graph.Between description.source description.target edge ∧
      Admits graph.idStart description edge.id) (graph.remove description) :=
  h.takes_removeWhere fun edge => by
    rw [Bool.and_eq_true, h.joins_iff_between, asksFor_iff_admits]

theorem WellFormed.takes_dropFile (h : graph.WellFormed) (fileName : String) :
    graph.Takes (fun edge => edge.fileName = some fileName) (graph.dropFile fileName) :=
  h.takes_removeWhere fun _ => decide_eq_true_iff

/-- **Removals take what they are asked for.**  After every run of changes, whatever assigned ids
begin with: to replace the edges of a pair is to take all of them and then to add an edge; the
removal of a description takes the edges of its pair with its id, or with ids that begin as
assigned ones do if it has none; and the removal of a file takes the edges from this file. -/
theorem removals_take_after (idStart : String) (run : List Change) :
    (∀ description, ∃ left,
      ((empty idStart).after run).Takes
        (((empty idStart).after run).Between description.source description.target)
        (left, (((empty idStart).after run).replace description).removed) ∧
      (((empty idStart).after run).replace description).graph = (left.add description).1) ∧
    (∀ description, ((empty idStart).after run).Takes
      (fun edge =>
        ((empty idStart).after run).Between description.source description.target edge ∧
          Admits idStart description edge.id)
      (((empty idStart).after run).remove description)) ∧
    ∀ fileName, ((empty idStart).after run).Takes (fun edge => edge.fileName = some fileName)
      (((empty idStart).after run).dropFile fileName) := by
  have hwell := wellFormed_after idStart run
  refine ⟨fun description => ?_, fun description => ?_, hwell.takes_dropFile⟩
  · exact ⟨_, hwell.takes_dropBetween description.source description.target, rfl⟩
  · have htakes := hwell.takes_remove description
    rwa [(recorded_after idStart run).start] at htakes

end Graph

end Remodel
