import Remodel.Proofs.Graph.Origins

/-!
# Replacing the edges of several pairs

Descriptions that have ids come one after the other, each as the only one of its pair and of its id
(`replaceAll`).  What is held then does not depend on the order of the edges: of what was held
before, all that none of the descriptions displaces, and of the descriptions those that no later one
displaces (`holds_replaceAll`).

Two well-formed graphs with the same nodes that hold the same descriptions have the same edges, in
any order (`WellFormed.perm_edges`).  So when the descriptions of a file are exchanged for others
that have ids, it makes no difference whether this is done a second time (`exchange_again`): what
the file brings does not depend on the graph, and what stays the first time stays the second time.
-/

namespace Remodel

/-- A description that comes takes the place of one of its pair, and of the one with its id. -/
def Description.displaces (description held : Description) : Bool :=
  held.connects description.source description.target || held.id = description.id

/-- The descriptions that no later one displaces. -/
def Description.lasting : List Description → List Description
  | [] => []
  | description :: rest =>
    if rest.any fun later => later.displaces description then lasting rest
    else description :: lasting rest

theorem Description.lasting_subset (descriptions : List Description) :
    lasting descriptions ⊆ descriptions := by
  induction descriptions with
  | nil => exact List.Subset.refl _
  | cons description rest ih =>
      rw [lasting]
      split
      · exact List.subset_cons_of_subset _ ih
      · exact List.cons_subset_cons _ ih

namespace Graph

variable {graph : Graph} {description : Description} {descriptions : List Description}

/-! ## One description -/

/-- A description that has an id is stored as it is. -/
theorem stored_replace (hid : description.id.isSome = true) :
    (graph.replace description).stored = description := by
  obtain ⟨id, hid⟩ := Option.isSome_iff_exists.mp hid
  obtain ⟨source, target, id?, fileName, steps⟩ := description
  obtain rfl : id? = some id := hid
  rfl

theorem replace_graph (hid : description.id.isSome = true) :
    ∃ id, description.id = some id ∧ (graph.replace description).graph =
      (graph.dropBetween description.source description.target).1.addAs id description := by
  obtain ⟨id, hid⟩ := Option.isSome_iff_exists.mp hid
  exact ⟨id, hid, by simp [replace, add, hid]⟩

theorem WellFormed.holds_replace_of_id (h : graph.WellFormed) (hid : description.id.isSome = true)
    {held : Description} : (graph.replace description).graph.Holds held ↔
      held = description ∨ graph.Holds held ∧ description.displaces held = false := by
  have hsame : some (graph.replace description).id = description.id :=
    congrArg Description.id (stored_replace hid)
  rw [h.holds_replace, stored_replace hid, hsame]
  simp [Description.displaces, and_assoc]

/-! ## Nodes and assigned ids -/

/-- Whether a type has a node. -/
def Knows (graph : Graph) (typeId : String) : Prop :=
  ∃ place, graph.nodeIndex? typeId = some place

theorem knows_node (graph : Graph) (typeId : String) : (graph.node typeId).1.Knows typeId :=
  ⟨_, by rw [nodeIndex?_node, if_pos rfl]⟩

theorem Knows.node {typeId : String} (h : graph.Knows typeId) (other : String) :
    (graph.node other).1.Knows typeId := by
  obtain ⟨place, hplace⟩ := h
  exact ⟨place, nodeIndex?_node_of_some hplace other⟩

theorem node_of_knows {typeId : String} (h : graph.Knows typeId) :
    (graph.node typeId).1 = graph := by
  obtain ⟨place, hplace⟩ := h
  rw [node_of_known hplace]

/-- Two graphs have the same nodes and the same index. -/
def SameNodes (a b : Graph) : Prop := a.nodes = b.nodes ∧ a.places = b.places

theorem SameNodes.trans {a b c : Graph} (h : SameNodes a b) (h' : SameNodes b c) :
    SameNodes a c := ⟨h.1.trans h'.1, h.2.trans h'.2⟩

theorem SameNodes.node {a b : Graph} (h : SameNodes a b) (typeId : String) :
    SameNodes (a.node typeId).1 (b.node typeId).1 := by
  obtain ⟨hnodes, hplaces⟩ := h
  have hindex : a.nodeIndex? typeId = b.nodeIndex? typeId := by
    rw [nodeIndex?, nodeIndex?, hplaces]
  cases hknown : b.nodeIndex? typeId with
  | some place =>
      rw [node_of_known hknown, node_of_known (hindex.trans hknown)]
      exact ⟨hnodes, hplaces⟩
  | none =>
      rw [node_of_unknown hknown, node_of_unknown (hindex.trans hknown)]
      exact ⟨by rw [hnodes], by rw [hnodes, hplaces]⟩

theorem Removed.sameNodes {gone : List Edge} {result : Graph × List Description}
    (h : Removed graph gone result) : SameNodes result.1 graph := ⟨h.nodes, h.places⟩

theorem SameNodes.knows {a b : Graph} (h : SameNodes a b) {typeId : String}
    (hknows : b.Knows typeId) : a.Knows typeId := by
  obtain ⟨place, hplace⟩ := hknows
  exact ⟨place, by rw [nodeIndex?, h.2, ← nodeIndex?, hplace]⟩

theorem sameNodes_link (graph : Graph) (id : String) (description : Description) :
    SameNodes (graph.link id description) (graph.ensureEnds description) := ⟨rfl, rfl⟩

/-- A description that has an id brings nodes for its types. -/
theorem WellFormed.sameNodes_replace (h : graph.WellFormed) (hid : description.id.isSome = true) :
    SameNodes (graph.replace description).graph (graph.ensureEnds description) := by
  have hwell : (graph.dropBetween description.source description.target).1.WellFormed :=
    h.removeWhere _
  obtain ⟨id, -, hgraph⟩ : ∃ id, description.id = some id ∧ (graph.replace description).graph = _ :=
    replace_graph hid
  have hpair : SameNodes (graph.dropBetween description.source description.target).1 graph :=
    (removed_removeWhere h.ids _).sameNodes
  have hdropped := (removed_removeWhere hwell.ids fun edge => edge.id = id).sameNodes.trans hpair
  have hends := (hdropped.node description.source).node description.target
  rw [hgraph, hwell.addAs_eq]
  exact (sameNodes_link _ id { description with id := some id }).trans hends

/-- No id is assigned to a description that has one. -/
theorem WellFormed.assigned_replace (h : graph.WellFormed) (hid : description.id.isSome = true) :
    (graph.replace description).graph.assigned = graph.assigned := by
  have hwell : (graph.dropBetween description.source description.target).1.WellFormed :=
    h.removeWhere _
  obtain ⟨id, -, hgraph⟩ : ∃ id, description.id = some id ∧ (graph.replace description).graph = _ :=
    replace_graph hid
  rw [hgraph, assigned_addAs hwell]
  exact (removed_removeWhere h.ids _).assigned

theorem Knows.replace {typeId : String} (hknows : graph.Knows typeId) (h : graph.WellFormed)
    (hid : description.id.isSome = true) : (graph.replace description).graph.Knows typeId :=
  (h.sameNodes_replace hid).knows ((hknows.node _).node _)

/-- Both types of a description have nodes. -/
def KnowsEnds (graph : Graph) (description : Description) : Prop :=
  graph.Knows description.source ∧ graph.Knows description.target

/-! ## Several descriptions -/

variable (hids : ∀ description ∈ descriptions, description.id.isSome = true)

include hids

theorem WellFormed.holds_replaceAll (h : graph.WellFormed) {held : Description} :
    (graph.replaceAll descriptions).Holds held ↔
      (graph.Holds held ∧ ∀ description ∈ descriptions, description.displaces held = false) ∨
        held ∈ Description.lasting descriptions := by
  induction descriptions generalizing graph with
  | nil => simp [Graph.replaceAll, Description.lasting]
  | cons description rest ih =>
      obtain ⟨hid, hrest⟩ := List.forall_mem_cons.mp hids
      change ((graph.replace description).graph.replaceAll rest).Holds held ↔ _
      rw [ih hrest (h.replace description), h.holds_replace_of_id hid, List.forall_mem_cons,
        Description.lasting]
      cases hany : rest.any fun later => later.displaces description with
      | true =>
          -- the new description does not last
          obtain ⟨later, hlater, hdisplaces⟩ := List.any_eq_true.mp hany
          have hgone : ¬ (held = description ∧
              ∀ later ∈ rest, later.displaces held = false) := by
            rintro ⟨rfl, hall⟩
            exact absurd (hdisplaces.symm.trans (hall later hlater)) (by decide)
          simp only [if_true]
          tauto
      | false =>
          have hlasts : held = description → ∀ later ∈ rest, later.displaces held = false := by
            rintro rfl later hlater
            exact Bool.eq_false_iff.mpr (List.any_eq_false.mp hany later hlater)
          simp only [Bool.false_eq_true, if_false, List.mem_cons]
          tauto

theorem WellFormed.knows_replaceAll (h : graph.WellFormed) {typeId : String}
    (hknows : graph.Knows typeId) : (graph.replaceAll descriptions).Knows typeId := by
  induction descriptions generalizing graph with
  | nil => exact hknows
  | cons description rest ih =>
      obtain ⟨hid, hrest⟩ := List.forall_mem_cons.mp hids
      exact ih hrest (h.replace description) (hknows.replace h hid)

theorem WellFormed.knowsEnds_replaceAll (h : graph.WellFormed) :
    ∀ description ∈ descriptions, (graph.replaceAll descriptions).KnowsEnds description := by
  induction descriptions generalizing graph with
  | nil => exact fun _ hmem => absurd hmem List.not_mem_nil
  | cons description rest ih =>
      obtain ⟨hid, hrest⟩ := List.forall_mem_cons.mp hids
      have hsame := h.sameNodes_replace hid
      have hsource : (graph.replace description).graph.Knows description.source :=
        hsame.knows ((knows_node graph description.source).node description.target)
      have htarget : (graph.replace description).graph.Knows description.target :=
        hsame.knows (knows_node _ description.target)
      exact List.forall_mem_cons.mpr ⟨⟨(h.replace description).knows_replaceAll hrest hsource,
        (h.replace description).knows_replaceAll hrest htarget⟩, ih hrest (h.replace description)⟩

theorem WellFormed.nodes_replaceAll (h : graph.WellFormed)
    (hends : ∀ description ∈ descriptions, graph.KnowsEnds description) :
    (graph.replaceAll descriptions).nodes = graph.nodes := by
  induction descriptions generalizing graph with
  | nil => rfl
  | cons description rest ih =>
      obtain ⟨hid, hrest⟩ := List.forall_mem_cons.mp hids
      obtain ⟨⟨hsource, htarget⟩, hendsRest⟩ := List.forall_mem_cons.mp hends
      have hsame : (graph.replace description).graph.nodes = graph.nodes := by
        rw [(h.sameNodes_replace hid).1, Graph.ensureEnds, node_of_knows hsource,
          node_of_knows htarget]
      refine (ih hrest (h.replace description) fun other hother => ?_).trans hsame
      obtain ⟨hfirst, hsecond⟩ := hendsRest other hother
      exact ⟨hfirst.replace h hid, hsecond.replace h hid⟩

theorem WellFormed.assigned_replaceAll (h : graph.WellFormed) :
    (graph.replaceAll descriptions).assigned = graph.assigned := by
  induction descriptions generalizing graph with
  | nil => rfl
  | cons description rest ih =>
      obtain ⟨hid, hrest⟩ := List.forall_mem_cons.mp hids
      exact (ih hrest (h.replace description)).trans (h.assigned_replace hid)

omit hids

/-! ## Graphs that hold the same -/

theorem WellFormed.description?_iff (h : graph.WellFormed) {id : String} :
    graph.description? id = some description ↔
      graph.Holds description ∧ description.id = some id := by
  constructor
  · intro hlookup
    obtain ⟨edge, hedge, rfl⟩ := h.used id (Option.isSome_iff_exists.mpr ⟨_, hlookup⟩)
    obtain ⟨found, hfound, hdescribes⟩ := h.described edge hedge
    obtain rfl : found = description := Option.some.inj (hfound.symm.trans hlookup)
    exact ⟨⟨edge, hedge, hlookup⟩, hdescribes.id⟩
  · rintro ⟨hheld, hid⟩
    obtain ⟨edge, hedge, hlookup, hdescribes⟩ := h.holds_iff.mp hheld
    obtain rfl : edge.id = id := Option.some.inj (hdescribes.id.symm.trans hid)
    exact hlookup

/-- The index is known by the nodes. -/
theorem WellFormed.nodeIndex?_congr {a b : Graph} (ha : a.WellFormed) (hb : b.WellFormed)
    (hnodes : a.nodes = b.nodes) (typeId : String) : a.nodeIndex? typeId = b.nodeIndex? typeId := by
  refine Option.ext fun place => ?_
  rw [ha.places, hb.places, typeAt?, typeAt?, hnodes]

/-- An edge is known by its description and the index. -/
theorem Describes.edge_eq {a b : Graph}
    (hplaces : ∀ typeId, a.nodeIndex? typeId = b.nodeIndex? typeId) {edge edge' : Edge}
    (h : a.Describes edge description) (h' : b.Describes edge' description) : edge = edge' := by
  obtain ⟨id, source, target, fileName⟩ := edge
  obtain ⟨id', source', target', fileName'⟩ := edge'
  have hid := h.id.symm.trans h'.id
  have hfile := h.fileName.symm.trans h'.fileName
  obtain ⟨hsource, htarget⟩ := Graph.joins_iff.mp h.joins
  obtain ⟨hsource', htarget'⟩ := Graph.joins_iff.mp h'.joins
  rw [hplaces] at hsource htarget
  simp_all

theorem WellFormed.mem_edges_of_holds {a b : Graph} (ha : a.WellFormed) (hb : b.WellFormed)
    (hnodes : a.nodes = b.nodes) (h : ∀ description, a.Holds description → b.Holds description)
    {edge : Edge} (hedge : edge ∈ a.edges) : edge ∈ b.edges := by
  obtain ⟨description, hlookup, hdescribes⟩ := ha.described edge hedge
  obtain ⟨edge', hedge', -, hdescribes'⟩ := hb.holds_iff.mp (h description ⟨edge, hedge, hlookup⟩)
  rwa [hdescribes.edge_eq (ha.nodeIndex?_congr hb hnodes) hdescribes']

/-- Graphs with the same nodes that hold the same descriptions have the same edges. -/
theorem WellFormed.perm_edges {a b : Graph} (ha : a.WellFormed) (hb : b.WellFormed)
    (hnodes : a.nodes = b.nodes) (h : ∀ description, a.Holds description ↔ b.Holds description) :
    a.edges.Perm b.edges ∧ ∀ id, a.description? id = b.description? id := by
  refine ⟨(List.perm_ext_iff_of_nodup (List.Nodup.of_map _ ha.ids)
    (List.Nodup.of_map _ hb.ids)).mpr fun edge => ⟨?_, ?_⟩, fun id => Option.ext fun found => ?_⟩
  · exact ha.mem_edges_of_holds hb hnodes fun description => (h description).mp
  · exact hb.mem_edges_of_holds ha hnodes.symm fun description => (h description).mpr
  · rw [ha.description?_iff, hb.description?_iff, h found]

/-! ## Exchanging a file -/

/-- The graph with several descriptions instead of those of a file. -/
def exchange (graph : Graph) (fileName : String) (descriptions : List Description) : Graph :=
  (graph.dropFile fileName).1.replaceAll descriptions

/-- Two graphs have the same nodes at the same places and the same edges, which may be in another
order, with the same descriptions, and have assigned the same number of ids. -/
structure Alike (a b : Graph) : Prop where
  nodes : a.nodes = b.nodes
  places : ∀ typeId, a.nodeIndex? typeId = b.nodeIndex? typeId
  edges : a.edges.Perm b.edges
  descriptions : ∀ id, a.description? id = b.description? id
  assigned : a.assigned = b.assigned

theorem WellFormed.dropFile (h : graph.WellFormed) (fileName : String) :
    (graph.dropFile fileName).1.WellFormed :=
  h.removeWhere fun edge => edge.fileName = some fileName

theorem WellFormed.exchange (h : graph.WellFormed) (fileName : String)
    (descriptions : List Description) : (graph.exchange fileName descriptions).WellFormed :=
  WellFormed.invariant.replaceAll (h.dropFile fileName) descriptions

section Exchange

variable (hids : ∀ description ∈ descriptions, description.id.isSome = true) {fileName : String}

include hids

/-- What is held is what was held, apart from what came from the file and what is displaced, and the
descriptions that last. -/
theorem WellFormed.holds_exchange (h : graph.WellFormed) {held : Description} :
    (graph.exchange fileName descriptions).Holds held ↔
      ((graph.Holds held ∧ decide (held.fileName = some fileName) = false) ∧
        ∀ description ∈ descriptions, description.displaces held = false) ∨
      held ∈ Description.lasting descriptions := by
  rw [Graph.exchange, (h.dropFile fileName).holds_replaceAll hids, h.holds_dropFile]

theorem WellFormed.exchange_again (h : graph.WellFormed) :
    Alike ((graph.exchange fileName descriptions).exchange fileName descriptions)
      (graph.exchange fileName descriptions) := by
  have hfirst := h.exchange fileName descriptions
  have hdropped := removed_removeWhere hfirst.ids fun edge => edge.fileName = some fileName
  -- the types of the descriptions have nodes since the first time
  have hends : ∀ description ∈ descriptions,
      ((graph.exchange fileName descriptions).dropFile fileName).1.KnowsEnds description := by
    intro description hdescription
    have hknows : (graph.exchange fileName descriptions).KnowsEnds description :=
      (h.dropFile fileName).knowsEnds_replaceAll hids description hdescription
    exact ⟨hdropped.sameNodes.knows hknows.1, hdropped.sameNodes.knows hknows.2⟩
  have hnodes : ((graph.exchange fileName descriptions).exchange fileName descriptions).nodes =
      (graph.exchange fileName descriptions).nodes :=
    ((hfirst.dropFile fileName).nodes_replaceAll hids hends).trans hdropped.nodes
  have hholds : ∀ held,
      ((graph.exchange fileName descriptions).exchange fileName descriptions).Holds held ↔
        (graph.exchange fileName descriptions).Holds held := by
    intro held
    rw [hfirst.holds_exchange hids, h.holds_exchange hids]
    tauto
  obtain ⟨hedges, hdescriptions⟩ :=
    (hfirst.exchange fileName descriptions).perm_edges hfirst hnodes hholds
  exact ⟨hnodes, (hfirst.exchange fileName descriptions).nodeIndex?_congr hfirst hnodes, hedges,
    hdescriptions,
    ((hfirst.dropFile fileName).assigned_replaceAll hids).trans hdropped.assigned⟩

end Exchange

end Graph

end Remodel
