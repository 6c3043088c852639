import Remodel.Proofs.Graph.Removal

/-!
# Well-formed graphs

The index has the places of the nodes under their types, so that every type has one node; every
id has one edge, and the table holds the descriptions of the edges and no others (`WellFormed`).
An edge joins the types of its description (`Describes`).  All that is done to a graph keeps it so:
new nodes, the activity of types, removals, and new edges under ids that no edge has.
-/

namespace Remodel

namespace Graph

/-! ## Nodes of types -/

/-- The type of the node at a place. -/
def typeAt? (graph : Graph) (place : Nat) : Option String := graph.nodes[place]?.map Vertex.typeId

section Nodes

variable {graph : Graph} {typeId : String} {place : Nat}

/-- A type that is known has its node. -/
theorem node_of_known (h : graph.nodeIndex? typeId = some place) :
    graph.node typeId = (graph, place) := by
  unfold node
  rw [h]

/-- A type that is met for the first time gets a node at the end. -/
theorem node_of_unknown (h : graph.nodeIndex? typeId = none) :
    graph.node typeId =
      ({ graph with
          nodes := graph.nodes ++ [⟨typeId, false⟩]
          places := Table.insert typeId graph.nodes.length graph.places },
        graph.nodes.length) := by
  unfold node
  rw [h]

@[simp] theorem edges_node (graph : Graph) (typeId : String) :
    (graph.node typeId).1.edges = graph.edges := by
  unfold node
  split <;> rfl

@[simp] theorem descriptions_node (graph : Graph) (typeId : String) :
    (graph.node typeId).1.descriptions = graph.descriptions := by
  unfold node
  split <;> rfl

/-- The type has its place then, and every other one the place that it had. -/
theorem nodeIndex?_node (graph : Graph) (typeId other : String) :
    (graph.node typeId).1.nodeIndex? other =
      if other = typeId then some (graph.node typeId).2 else graph.nodeIndex? other := by
  cases hplace : graph.nodeIndex? typeId with
  | some place =>
      rw [node_of_known hplace]
      split
      · rename_i hsame
        rw [hsame, hplace]
      · rfl
  | none =>
      rw [node_of_unknown hplace]
      exact Table.lookup_insert ..

/-- No type loses its place. -/
theorem nodeIndex?_node_of_some (h : graph.nodeIndex? typeId = some place) (other : String) :
    (graph.node other).1.nodeIndex? typeId = some place := by
  rw [nodeIndex?_node]
  split
  · rename_i hsame
    subst hsame
    rw [node_of_known h]
  · exact h

theorem typeAt?_node_of_unknown (h : graph.nodeIndex? typeId = none) (place : Nat) :
    (graph.node typeId).1.typeAt? place =
      if place = graph.nodes.length then some typeId else graph.typeAt? place := by
  rw [node_of_unknown h, typeAt?, typeAt?]
  rcases Nat.lt_trichotomy place graph.nodes.length with hlt | rfl | hgt
  · rw [if_neg (Nat.ne_of_lt hlt), List.getElem?_append_left hlt]
  · rw [if_pos rfl, List.getElem?_concat_length, Option.map_some]
  · rw [if_neg (Nat.ne_of_gt hgt), List.getElem?_eq_none (Nat.le_of_lt hgt),
      List.getElem?_eq_none (by rw [List.length_append, List.length_singleton]; omega)]

theorem typeAt?_setActive (graph : Graph) (place : Nat) (active : Bool) (other : Nat) :
    (graph.setActive place active).typeAt? other = graph.typeAt? other := by
  rw [typeAt?, setActive, List.getElem?_modify, typeAt?]
  cases graph.nodes[other]? with
  | none => rfl
  | some node =>
      simp only [Option.map_some]
      split <;> rfl

end Nodes

theorem value_dropType (graph : Graph) (typeId : String) :
    (∃ place, (graph.dropType typeId).value = graph.setActive place false) ∨
      (graph.dropType typeId).value = graph := by
  unfold dropType
  cases graph.nodeIndex? typeId with
  | some place => exact Or.inl ⟨place, rfl⟩
  | none => exact Or.inr rfl

theorem edges_dropType (graph : Graph) (typeId : String) :
    (graph.dropType typeId).value.edges = graph.edges := by
  rcases value_dropType graph typeId with ⟨place, heq⟩ | heq <;> rw [heq]
  rfl

theorem descriptions_dropType (graph : Graph) (typeId : String) :
    (graph.dropType typeId).value.descriptions = graph.descriptions := by
  rcases value_dropType graph typeId with ⟨place, heq⟩ | heq <;> rw [heq]
  rfl

/-! ## Well-formed graphs -/

theorem joins_iff {graph : Graph} {source target : String} {edge : Edge} :
    graph.joins source target edge = true ↔
      graph.nodeIndex? source = some edge.source ∧ graph.nodeIndex? target = some edge.target := by
  simp [joins]

/-- The edge has the id and the file of its description, and joins its types. -/
structure Describes (graph : Graph) (edge : Edge) (description : Description) : Prop where
  id : description.id = some edge.id
  fileName : description.fileName = edge.fileName
  joins : graph.joins description.source description.target edge = true

/-- The index has the places of the nodes, every id has one edge, and the table holds the
descriptions of the edges and no others. -/
structure WellFormed (graph : Graph) : Prop where
  places : ∀ typeId place,
    graph.nodeIndex? typeId = some place ↔ graph.typeAt? place = some typeId
  ids : (graph.edges.map Edge.id).Nodup
  described : ∀ edge ∈ graph.edges, ∃ description,
    graph.describedBy? edge = some description ∧ graph.Describes edge description
  used : ∀ id, (graph.descriptions.lookup id).isSome → ∃ edge ∈ graph.edges, edge.id = id

theorem wellFormed_empty (idStart : String) : (empty idStart).WellFormed where
  places _ _ := by simp [empty, nodeIndex?, typeAt?]
  ids := List.nodup_nil
  described _ h := absurd h List.not_mem_nil
  used _ h := by simp [empty] at h

variable {graph : Graph}

/-- New places for types, with those of known types as they are, do not change what describes an
edge. -/
theorem Describes.of_nodeIndex? {larger : Graph} {edge : Edge} {description : Description}
    (h : graph.Describes edge description)
    (hplaces : ∀ {typeId index}, graph.nodeIndex? typeId = some index →
      larger.nodeIndex? typeId = some index) : larger.Describes edge description where
  id := h.id
  fileName := h.fileName
  joins := by
    obtain ⟨hsource, htarget⟩ := Graph.joins_iff.mp h.joins
    exact Graph.joins_iff.mpr ⟨hplaces hsource, hplaces htarget⟩

namespace WellFormed

/-- A place belongs to one type. -/
theorem nodeIndex?_inj (h : graph.WellFormed) {a b : String} {place : Nat}
    (ha : graph.nodeIndex? a = some place) (hb : graph.nodeIndex? b = some place) : a = b :=
  Option.some.inj (((h.places a place).mp ha).symm.trans ((h.places b place).mp hb))

/-- No two nodes are of the same type. -/
theorem types (h : graph.WellFormed) : (graph.nodes.map Vertex.typeId).Nodup := by
  rw [List.nodup_iff_getElem?_ne_getElem?]
  intro first second hlt hsecond hsame
  rw [List.getElem?_map, List.getElem?_map] at hsame
  obtain ⟨typeId, htype⟩ : ∃ typeId, graph.typeAt? second = some typeId :=
    ⟨_, by rw [typeAt?, ← List.getElem?_map, List.getElem?_eq_getElem hsecond]⟩
  have hfirst : graph.nodeIndex? typeId = some first :=
    (h.places typeId first).mpr (hsame.trans htype)
  have hplaces : some first = some second := hfirst.symm.trans ((h.places typeId second).mpr htype)
  exact absurd (Option.some.inj hplaces) (Nat.ne_of_lt hlt)

/-- The types of an edge are those of its description. -/
theorem joins_eq (h : graph.WellFormed) {edge : Edge} {description : Description}
    (hdescribes : graph.Describes edge description) (source target : String) :
    graph.joins source target edge = description.connects source target := by
  obtain ⟨hsource, htarget⟩ := joins_iff.mp hdescribes.joins
  rw [Bool.eq_iff_iff, joins_iff, Description.connects, Bool.and_eq_true,
    decide_eq_true_eq, decide_eq_true_eq]
  constructor
  · rintro ⟨hs, ht⟩
    exact ⟨h.nodeIndex?_inj hsource hs, h.nodeIndex?_inj htarget ht⟩
  · rintro ⟨rfl, rfl⟩
    exact ⟨hsource, htarget⟩

/-- A graph with the same edges where every type keeps its place. -/
theorem of_nodes (h : graph.WellFormed) {larger : Graph} (hedges : larger.edges = graph.edges)
    (hdescriptions : larger.descriptions = graph.descriptions)
    (hplaces : ∀ typeId place,
      larger.nodeIndex? typeId = some place ↔ larger.typeAt? place = some typeId)
    (hkept : ∀ {typeId place}, graph.nodeIndex? typeId = some place →
      larger.nodeIndex? typeId = some place) : larger.WellFormed where
  places := hplaces
  ids := by rw [hedges]; exact h.ids
  described edge hedge := by
    rw [hedges] at hedge
    obtain ⟨description, hlookup, hdescribes⟩ := h.described edge hedge
    refine ⟨description, ?_, hdescribes.of_nodeIndex? hkept⟩
    rw [describedBy?, hdescriptions, ← describedBy?, hlookup]
  used := by rw [hedges, hdescriptions]; exact h.used

/-- A type with a node is known. -/
theorem typeAt?_ne_of_unknown (h : graph.WellFormed) {typeId : String}
    (hunknown : graph.nodeIndex? typeId = none) (place : Nat) :
    graph.typeAt? place ≠ some typeId := by
  intro htype
  cases hunknown.symm.trans ((h.places typeId place).mpr htype)

theorem node (h : graph.WellFormed) (typeId : String) : (graph.node typeId).1.WellFormed := by
  refine h.of_nodes (edges_node graph typeId) (descriptions_node graph typeId) ?_
    fun hplace => nodeIndex?_node_of_some hplace typeId
  cases hknown : graph.nodeIndex? typeId with
  | some index =>
      rw [node_of_known hknown]
      exact h.places
  | none =>
      intro other place
      rw [nodeIndex?_node, typeAt?_node_of_unknown hknown, node_of_unknown hknown]
      by_cases hsame : other = typeId <;> by_cases hend : place = graph.nodes.length
      · rw [if_pos hsame, if_pos hend, hsame, hend]
        exact iff_of_true rfl rfl
      · rw [if_pos hsame, if_neg hend, hsame]
        exact iff_of_false (fun hplace => hend (Option.some.inj hplace).symm)
          (h.typeAt?_ne_of_unknown hknown place)
      · rw [if_neg hsame, if_pos hend, hend]
        refine iff_of_false (fun hplace => ?_) fun htype => hsame (Option.some.inj htype).symm
        have hnode := (h.places other graph.nodes.length).mp hplace
        rw [typeAt?, List.getElem?_eq_none (Nat.le_refl _)] at hnode
        cases hnode
      · rw [if_neg hsame, if_neg hend]
        exact h.places other place

theorem setActive (h : graph.WellFormed) (place : Nat) (active : Bool) :
    (graph.setActive place active).WellFormed := by
  refine h.of_nodes rfl rfl (fun typeId other => ?_) fun hplace => hplace
  rw [typeAt?_setActive]
  exact h.places typeId other

theorem insertType (h : graph.WellFormed) (typeId : String) :
    (graph.insertType typeId).WellFormed := (h.node typeId).setActive _ true

theorem dropType (h : graph.WellFormed) (typeId : String) :
    (graph.dropType typeId).value.WellFormed := by
  rcases value_dropType graph typeId with ⟨place, heq⟩ | heq <;> rw [heq]
  · exact h.setActive place false
  · exact h

/-- What stays when edges are removed is well formed. -/
theorem removed (h : graph.WellFormed) {gone : List Edge} {result : Graph × List Description}
    (hremoved : Removed graph gone result) : result.1.WellFormed where
  places typeId place := by
    rw [nodeIndex?, hremoved.places, typeAt?, hremoved.nodes]
    exact h.places typeId place
  ids := (List.nodup_append.mp (hremoved.nodup h.ids)).2.1
  described edge hedge := by
    obtain ⟨description, hlookup, hdescribes⟩ :=
      h.described edge (hremoved.edges.subset (List.mem_append_right _ hedge))
    refine ⟨description, (hremoved.describedBy?_eq h.ids hedge).trans hlookup,
      hdescribes.of_nodeIndex? fun hplace => ?_⟩
    rw [nodeIndex?, hremoved.places, ← nodeIndex?, hplace]
  used id hid := by
    rw [hremoved.lookup] at hid
    split at hid
    · cases hid
    · rename_i hstays
      obtain ⟨edge, hedge, rfl⟩ := h.used id hid
      rcases List.mem_append.mp (hremoved.edges.symm.subset hedge) with hgone | hkept
      · exact absurd (List.mem_map_of_mem hgone) hstays
      · exact ⟨edge, hkept, rfl⟩

theorem removeWhere (h : graph.WellFormed) (chosen : Edge → Bool) :
    (graph.removeWhere chosen).1.WellFormed := h.removed (removed_removeWhere h.ids chosen)

end WellFormed

end Graph

end Remodel
