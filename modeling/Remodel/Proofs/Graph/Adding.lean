import Remodel.Proofs.Graph.Holding

/-!
# Adding and replacing edges

A new edge comes under an id that no edge has, since the edge with that id is removed first:

* `holds_addAs`: a description comes under an id, and the one with this id goes;
* `holds_replace`, `mem_replace`: a description comes, and those of its pair go and are given.
  The one with its id goes as well, and is not given;
* `exists_path_iff`: there is a path where a description is held.
-/

namespace Remodel

namespace Graph

variable {graph : Graph}

/-- The graph with nodes for both types of a description. -/
def ensureEnds (graph : Graph) (description : Description) : Graph :=
  ((graph.node description.source).1.node description.target).1

theorem WellFormed.ensureEnds (h : graph.WellFormed) (description : Description) :
    (graph.ensureEnds description).WellFormed :=
  (h.node description.source).node description.target

theorem edges_ensureEnds (graph : Graph) (description : Description) :
    (graph.ensureEnds description).edges = graph.edges := by
  rw [Graph.ensureEnds, edges_node, edges_node]

theorem descriptions_ensureEnds (graph : Graph) (description : Description) :
    (graph.ensureEnds description).descriptions = graph.descriptions := by
  rw [Graph.ensureEnds, descriptions_node, descriptions_node]

/-- A new edge comes last, and joins the types of its description. -/
theorem edges_link (graph : Graph) (id : String) (description : Description) :
    ∃ edge, (graph.link id description).edges = graph.edges ++ [edge] ∧ edge.id = id ∧
      edge.fileName = description.fileName ∧
      (graph.ensureEnds description).joins description.source description.target edge = true := by
  have hsource : (graph.node description.source).1.nodeIndex? description.source =
      some (graph.node description.source).2 := by
    rw [nodeIndex?_node, if_pos rfl]
  have htarget : (graph.ensureEnds description).nodeIndex? description.target =
      some ((graph.node description.source).1.node description.target).2 := by
    rw [Graph.ensureEnds, nodeIndex?_node, if_pos rfl]
  refine ⟨⟨id, (graph.node description.source).2,
    ((graph.node description.source).1.node description.target).2, description.fileName⟩, ?_, rfl,
    rfl, joins_iff.mpr ⟨nodeIndex?_node_of_some hsource description.target, htarget⟩⟩
  exact congrArg (· ++ _) (edges_ensureEnds graph description)

theorem lookup_link (graph : Graph) (id : String) (description : Description) (name : String) :
    (graph.link id description).descriptions.lookup name =
      if name = id then some description else graph.descriptions.lookup name := by
  change (Table.insert id description (graph.ensureEnds description).descriptions).lookup name = _
  rw [Table.lookup_insert, descriptions_ensureEnds]

/-- An edge with another id keeps its description. -/
theorem describedBy?_link_of_ne {id : String} {edge : Edge} (hne : edge.id ≠ id)
    (description : Description) :
    (graph.link id description).describedBy? edge = graph.describedBy? edge := by
  rw [describedBy?, lookup_link, if_neg hne, describedBy?]

/-- Adding an edge under an id that no edge has. -/
theorem WellFormed.link (h : graph.WellFormed) {id : String} {description : Description}
    (hid : description.id = some id) (hfresh : ∀ edge ∈ graph.edges, edge.id ≠ id) :
    (graph.link id description).WellFormed := by
  obtain ⟨added, hedges, rfl, hfile, hjoins⟩ := edges_link graph id description
  have hends := h.ensureEnds description
  refine ⟨hends.places, ?_, fun edge hedge => ?_, fun name hname => ?_⟩
  · rw [hedges, List.map_append]
    refine List.nodup_append_comm.mp (List.nodup_cons.mpr ⟨fun hused => ?_, h.ids⟩)
    obtain ⟨edge, hedge, heq⟩ := List.mem_map.mp hused
    exact hfresh edge hedge heq
  · rw [hedges, List.mem_append, List.mem_singleton] at hedge
    rcases hedge with hedge | rfl
    · rw [← edges_ensureEnds graph description] at hedge
      obtain ⟨found, hlookup, hdescribes⟩ := hends.described edge hedge
      rw [edges_ensureEnds] at hedge
      refine ⟨found, ?_, hdescribes.of_nodeIndex? fun hplace => hplace⟩
      rw [describedBy?_link_of_ne (hfresh edge hedge)]
      rwa [describedBy?, descriptions_ensureEnds] at hlookup
    · -- the new edge is described by the new description
      refine ⟨description, ?_, hid, hfile.symm, hjoins⟩
      rw [describedBy?, lookup_link, if_pos rfl]
  · rw [lookup_link] at hname
    rw [hedges]
    split at hname
    · rename_i hadded
      exact ⟨added, List.mem_append_right _ (List.mem_singleton_self _), hadded.symm⟩
    · obtain ⟨edge, hedge, heq⟩ := h.used name hname
      exact ⟨edge, List.mem_append_left _ hedge, heq⟩

theorem holds_link {id : String} {description held : Description}
    (hfresh : ∀ edge ∈ graph.edges, edge.id ≠ id) :
    (graph.link id description).Holds held ↔ held = description ∨ graph.Holds held := by
  obtain ⟨added, hedges, rfl, -, -⟩ := edges_link graph id description
  have hadded : (graph.link added.id description).describedBy? added = some description := by
    rw [describedBy?, lookup_link, if_pos rfl]
  simp only [Holds, hedges, List.mem_append, List.mem_singleton]
  constructor
  · rintro ⟨edge, hedge | rfl, hlookup⟩
    · rw [describedBy?_link_of_ne (hfresh edge hedge)] at hlookup
      exact Or.inr ⟨edge, hedge, hlookup⟩
    · exact Or.inl (Option.some.inj (hlookup.symm.trans hadded))
  · rintro (rfl | ⟨edge, hedge, hlookup⟩)
    · exact ⟨added, Or.inr rfl, hadded⟩
    · exact ⟨edge, Or.inl hedge, by rwa [describedBy?_link_of_ne (hfresh edge hedge)]⟩

/-! ## Adding under an id -/

theorem WellFormed.id_ne_of_mem_removeWhere (h : graph.WellFormed) {id : String} {edge : Edge}
    (hedge : edge ∈ (graph.removeWhere fun edge => edge.id = id).1.edges) : edge.id ≠ id := by
  rw [(perm_edges_removeWhere h.ids _).mem_iff] at hedge
  simpa using (List.mem_filter.mp hedge).2

/-- The new edge comes when all edges with its id are gone. -/
theorem WellFormed.addAs_eq (h : graph.WellFormed) (id : String) (description : Description) :
    graph.addAs id description = (graph.removeWhere fun edge => edge.id = id).1.link id
      { description with id := some id } := by
  rw [Graph.addAs, dropId_eq h.ids]

theorem WellFormed.addAs (h : graph.WellFormed) (id : String) (description : Description) :
    (graph.addAs id description).WellFormed := by
  rw [h.addAs_eq]
  exact (h.removeWhere _).link rfl fun _ hedge => h.id_ne_of_mem_removeWhere hedge

/-- A description comes under an id, and the one with this id goes. -/
theorem WellFormed.holds_addAs (h : graph.WellFormed) {id : String}
    {description held : Description} : (graph.addAs id description).Holds held ↔
      held = { description with id := some id } ∨ graph.Holds held ∧ held.id ≠ some id := by
  have hchosen : ∀ {edge found}, graph.Describes edge found →
      decide (edge.id = id) = decide (found.id = some id) := fun hdescribes => by
    rw [hdescribes.id]
    simp
  rw [h.addAs_eq, holds_link fun _ hedge => h.id_ne_of_mem_removeWhere hedge, h.holds_removeWhere hchosen]
  simp

/-- Counting the assigned ids. -/
theorem WellFormed.assignId (h : graph.WellFormed) : graph.assignId.1.WellFormed :=
  h.of_nodes rfl rfl h.places fun hplace => hplace

theorem WellFormed.add (h : graph.WellFormed) (description : Description) :
    (graph.add description).1.WellFormed := by
  unfold Graph.add
  cases description.id with
  | none => exact h.assignId.addAs _ description
  | some id => exact h.addAs id description

theorem WellFormed.holds_add (h : graph.WellFormed) {description held : Description} :
    (graph.add description).1.Holds held ↔
      held = { description with id := some (graph.add description).2 } ∨
        graph.Holds held ∧ held.id ≠ some (graph.add description).2 := by
  unfold Graph.add
  cases description.id with
  | none => exact h.assignId.holds_addAs
  | some id => exact h.holds_addAs

/-! ## Replacing -/

theorem WellFormed.replace (h : graph.WellFormed) (description : Description) :
    (graph.replace description).graph.WellFormed := (h.removeWhere _).add description

/-- A description comes, and those of its pair and the one with its id go. -/
theorem WellFormed.holds_replace (h : graph.WellFormed) {description held : Description} :
    (graph.replace description).graph.Holds held ↔
      held = (graph.replace description).stored ∨
        (graph.Holds held ∧ held.connects description.source description.target = false) ∧
          held.id ≠ some (graph.replace description).id := by
  rw [← h.holds_dropBetween]
  exact (h.removeWhere (graph.joins description.source description.target)).holds_add

theorem WellFormed.mem_replace (h : graph.WellFormed) {description held : Description} :
    held ∈ (graph.replace description).removed ↔
      graph.Holds held ∧ held.connects description.source description.target = true :=
  h.mem_dropBetween

/-! ## Paths -/

/-- A path is a description that is held. -/
theorem WellFormed.holds_of_path (h : graph.WellFormed) {source target : String}
    {description : Description} (hpath : graph.path source target [] = .ok description) :
    graph.Holds description ∧ description.connects source target = true := by
  have hfound : (graph.edge? source target []).bind graph.describedBy? = some description := by
    unfold path at hpath
    split at hpath
    · rename_i found hfound
      rw [hfound, Except.ok.inj hpath]
    · cases hpath
  obtain ⟨edge, hedge, hlookup⟩ := Option.bind_eq_some_iff.mp hfound
  obtain ⟨hmem, hjoins⟩ := List.mem_filter.mp (List.mem_of_head? hedge)
  obtain ⟨found, hfound, hdescribes⟩ := h.described edge hmem
  obtain rfl : found = description := Option.some.inj (hfound.symm.trans hlookup)
  exact ⟨⟨edge, hmem, hlookup⟩, by rw [← h.joins_eq hdescribes, hjoins]⟩

/-- There is a path where a description is held. -/
theorem WellFormed.exists_path_iff (h : graph.WellFormed) {source target : String} :
    (∃ description, graph.path source target [] = .ok description) ↔
      ∃ description, graph.Holds description ∧ description.connects source target = true := by
  refine ⟨fun ⟨description, hpath⟩ => ⟨description, h.holds_of_path hpath⟩, ?_⟩
  rintro ⟨description, hheld, hconnects⟩
  obtain ⟨edge, hedge, -, hdescribes⟩ := h.holds_iff.mp hheld
  have hne : graph.edges.filter (graph.joins source target) ≠ [] :=
    List.ne_nil_of_mem (List.mem_filter.mpr ⟨hedge, by rw [h.joins_eq hdescribes, hconnects]⟩)
  obtain ⟨first, hfirst⟩ : ∃ first, graph.edge? source target [] = some first :=
    ⟨_, List.head?_eq_some_head hne⟩
  obtain ⟨found, hfound, -⟩ :=
    h.described first (List.mem_filter.mp (List.mem_of_head? hfirst)).1
  exact ⟨found, by rw [path, hfirst, Option.bind_some, hfound]⟩

theorem hasPath_iff {source target : String} {ids : List String} :
    graph.hasPath source target ids = true ↔
      ∃ description, graph.path source target ids = .ok description := by
  unfold hasPath
  cases graph.path source target ids <;> simp [Except.isOk, Except.toBool]

end Graph

end Remodel
