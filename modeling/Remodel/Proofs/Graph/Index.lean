import Mathlib.Data.List.Nodup
import Remodel.Proofs.Graph.Runs
import Remodel.Proofs.Table

/-!
# What the parts of a graph say of one another

After every run of changes four things are linked (`Linked`): the ids of the edges, the keys of the
table of descriptions, the descriptions with the ends and files of their edges, and the index with
the nodes.

## Strategy

That a graph is well formed tells what is looked up in its tables.  The keys of the tables ascend
besides (`Ordered`), whatever is removed and added: so each of them is there once, and a table has
no entry that is not looked up.
-/

namespace Remodel

namespace Graph

/-- What the parts of a graph have to do with one another: every id is that of one edge; the table
has the ids of the edges as its keys, and under each of them a description with this id and with
the types and the file of the edge; no two nodes are of the same type; the index has the types of
the nodes as its keys, it gives each type the place of its node and no others, and a search through
the nodes gives the same. -/
structure Linked (graph : Graph) : Prop where
  ids : (graph.edges.map Edge.id).Nodup
  keys : (graph.descriptions.map Prod.fst).Perm (graph.edges.map Edge.id)
  described : ∀ id description, (id, description) ∈ graph.descriptions → description.id = some id ∧
    ∃ edge ∈ graph.edges, edge.id = id ∧ description.fileName = edge.fileName ∧
      ∃ source target, graph.nodes[edge.source]? = some source ∧
        graph.nodes[edge.target]? = some target ∧
        source.typeId = description.source ∧ target.typeId = description.target
  types : (graph.nodes.map Vertex.typeId).Nodup
  known : (graph.places.map Prod.fst).Perm (graph.nodes.map Vertex.typeId)
  places : ∀ typeId place, graph.places.lookup typeId = some place ↔
    ∃ node, graph.nodes[place]? = some node ∧ node.typeId = typeId
  search : ∀ typeId,
    graph.places.lookup typeId = graph.nodes.findIdx? fun node => node.typeId = typeId

/-- The keys of both tables ascend. -/
structure Ordered (graph : Graph) : Prop where
  descriptions : Table.Ascending graph.descriptions
  places : Table.Ascending graph.places

theorem ordered_empty (idStart : String) : (empty idStart).Ordered :=
  ⟨List.Pairwise.nil, List.Pairwise.nil⟩

variable {graph : Graph}

/-! ## Ascending keys -/

namespace Ordered

theorem node (h : graph.Ordered) (typeId : String) : (graph.node typeId).1.Ordered := by
  unfold Graph.node
  split
  · exact h
  · exact ⟨h.descriptions, h.places.insert ..⟩

theorem dropType (h : graph.Ordered) (typeId : String) :
    (graph.dropType typeId).value.Ordered := by
  rcases value_dropType graph typeId with ⟨place, heq⟩ | heq <;> rw [heq]
  · exact ⟨h.descriptions, h.places⟩
  · exact h

theorem dropEdge (h : graph.Ordered) (place : Nat) : (graph.dropEdge place).1.Ordered := by
  unfold Graph.dropEdge
  split
  · exact ⟨h.descriptions.erase _, h.places⟩
  · exact h

theorem removeEdges (h : graph.Ordered) (places : List Nat) :
    (graph.removeEdges places).1.Ordered := by
  induction places generalizing graph with
  | nil => exact h
  | cons place rest ih => exact ih (h.dropEdge place)

theorem removeWhere (h : graph.Ordered) (chosen : Edge → Bool) :
    (graph.removeWhere chosen).1.Ordered := h.removeEdges _

theorem addAs (h : graph.Ordered) (id : String) (description : Description) :
    (graph.addAs id description).Ordered := by
  have hdropped : (graph.dropId id).Ordered := by
    unfold dropId
    split
    · exact h.dropEdge _
    · exact h
  have hends := (hdropped.node description.source).node description.target
  exact ⟨hends.descriptions.insert .., hends.places⟩

theorem add (h : graph.Ordered) (description : Description) :
    (graph.add description).1.Ordered := by
  have hassigned : graph.assignId.1.Ordered := ⟨h.descriptions, h.places⟩
  unfold Graph.add
  cases description.id with
  | none => exact hassigned.addAs _ description
  | some id => exact h.addAs id description

theorem invariant : Invariant Ordered where
  insertType h typeId := ⟨(h.node typeId).descriptions, (h.node typeId).places⟩
  dropType h := h.dropType
  removeWhere h := h.removeWhere
  add h := h.add

end Ordered

/-! ## What is looked up -/

/-- The keys of the table are the ids of the edges. -/
theorem WellFormed.mem_keys_iff (h : graph.WellFormed) (id : String) :
    id ∈ graph.descriptions.map Prod.fst ↔ id ∈ graph.edges.map Edge.id := by
  rw [Table.mem_keys_iff_isSome_lookup, List.mem_map]
  constructor
  · exact h.used id
  · rintro ⟨edge, hedge, rfl⟩
    obtain ⟨description, hlookup, -⟩ := h.described edge hedge
    exact Option.isSome_iff_exists.mpr ⟨description, hlookup⟩

/-- A place is that of the node which stands there. -/
theorem WellFormed.nodeIndex?_eq_some_iff (h : graph.WellFormed) {typeId : String} {place : Nat} :
    graph.nodeIndex? typeId = some place ↔
      ∃ node, graph.nodes[place]? = some node ∧ node.typeId = typeId := by
  rw [h.places, typeAt?, Option.map_eq_some_iff]

/-- The types of the index are those of the nodes. -/
theorem WellFormed.mem_types_iff (h : graph.WellFormed) (typeId : String) :
    typeId ∈ graph.places.map Prod.fst ↔ typeId ∈ graph.nodes.map Vertex.typeId := by
  rw [Table.mem_keys_iff_isSome_lookup, Option.isSome_iff_exists, List.mem_map]
  constructor
  · rintro ⟨place, hplace⟩
    obtain ⟨node, hnode, htype⟩ := h.nodeIndex?_eq_some_iff.mp hplace
    exact ⟨node, List.mem_of_getElem? hnode, htype⟩
  · rintro ⟨node, hnode, htype⟩
    obtain ⟨place, hplace⟩ := List.mem_iff_getElem?.mp hnode
    exact ⟨place, h.nodeIndex?_eq_some_iff.mpr ⟨node, hplace, htype⟩⟩

/-- The first node of a type is the one that the index has. -/
theorem WellFormed.findIdx?_eq (h : graph.WellFormed) (typeId : String) :
    (graph.nodes.findIdx? fun node => node.typeId = typeId) = graph.nodeIndex? typeId := by
  cases hfound : graph.nodes.findIdx? fun node => node.typeId = typeId with
  | some place =>
      obtain ⟨hplace, htype, -⟩ := List.findIdx?_eq_some_iff_getElem.mp hfound
      exact (h.nodeIndex?_eq_some_iff.mpr ⟨graph.nodes[place], List.getElem?_eq_getElem hplace,
        of_decide_eq_true htype⟩).symm
  | none =>
      symm
      rw [Option.eq_none_iff_forall_ne_some]
      intro place hplace
      obtain ⟨node, hnode, htype⟩ := h.nodeIndex?_eq_some_iff.mp hplace
      have hother := List.findIdx?_eq_none_iff.mp hfound node (List.mem_of_getElem? hnode)
      exact of_decide_eq_false hother htype

/-! ## What is linked -/

theorem WellFormed.linked (hwell : graph.WellFormed) (h : graph.Ordered) : graph.Linked where
  ids := hwell.ids
  keys := (List.perm_ext_iff_of_nodup h.descriptions.nodup hwell.ids).mpr hwell.mem_keys_iff
  described id description hentry := by
    have hlookup := h.descriptions.mem_iff_lookup.mp hentry
    obtain ⟨edge, hedge, rfl⟩ := hwell.used id (by rw [hlookup]; rfl)
    obtain ⟨found, hfound, hdescribes⟩ := hwell.described edge hedge
    obtain rfl : found = description := Option.some.inj (hfound.symm.trans hlookup)
    obtain ⟨hsource, htarget⟩ := joins_iff.mp hdescribes.joins
    obtain ⟨source, hsource, hsourceType⟩ := hwell.nodeIndex?_eq_some_iff.mp hsource
    obtain ⟨target, htarget, htargetType⟩ := hwell.nodeIndex?_eq_some_iff.mp htarget
    exact ⟨hdescribes.id, edge, hedge, rfl, hdescribes.fileName, source, target, hsource, htarget,
      hsourceType, htargetType⟩
  types := hwell.types
  known := (List.perm_ext_iff_of_nodup h.places.nodup hwell.types).mpr hwell.mem_types_iff
  places _ _ := hwell.nodeIndex?_eq_some_iff
  search typeId := (hwell.findIdx?_eq typeId).symm

/-- **The parts of a graph stay linked.**  After every run of changes, whatever assigned ids begin
with, the edges, the table of descriptions, the nodes and the index of their types say the same. -/
theorem linked_after (idStart : String) (run : List Change) :
    ((empty idStart).after run).Linked :=
  (wellFormed_after idStart run).linked (Ordered.invariant.after (ordered_empty idStart) run)

end Graph

end Remodel
