import Mathlib.Data.List.Induction
import Mathlib.Data.List.Nodup
import Mathlib.Data.List.Perm.Basic
import Remodel.Graph.Basic

/-!
# Removing edges

A removed edge leaves its place to the last one, so the places of the remaining edges change
while edges are removed.  The places below a removed one keep their edges, though, and edges are
removed from the highest place down.  So what is removed is what was chosen:

* `removed_dropEdge`: one edge goes, with its description;
* `Removed.trans`: removals one after the other are one removal;
* `removed_removeWhere`: what goes are the chosen edges, the last one first, each with the
  description that it had in the beginning;
* `dropId_eq`: the first edge with an id is the only one, where every id has one edge.
-/

namespace Remodel

namespace Graph

/-- An item leaves its place: those before it stay where they are, and those after it stay. -/
theorem swapRemove_append_cons {α : Type} (front : List α) (item : α) (back : List α) :
    ∃ moved, moved.Perm back ∧ swapRemove (front ++ item :: back) front.length = front ++ moved := by
  rcases List.eq_nil_or_concat' back with rfl | ⟨init, last, rfl⟩
  · exact ⟨[], .rfl, by simp [swapRemove]⟩
  · refine ⟨last :: init, (List.perm_append_singleton last init).symm, ?_⟩
    have hlast : (front ++ item :: (init ++ [last])).getLast? = some last := by
      rw [← List.cons_append, ← List.append_assoc, List.getLast?_concat]
    have hset : (front ++ item :: (init ++ [last])).set front.length last =
        (front ++ last :: init) ++ [last] := by simp
    rw [swapRemove, hlast]
    simp only [hset, List.dropLast_concat]
    simp

/-! ## What a removal does -/

/-- Some edges are removed: the others stay, in any order, with their descriptions, and the
descriptions of the removed ones are given. -/
structure Removed (graph : Graph) (gone : List Edge) (result : Graph × List Description) :
    Prop where
  edges : (gone ++ result.1.edges).Perm graph.edges
  descriptions : result.2 = gone.filterMap graph.describedBy?
  lookup : ∀ id, result.1.descriptions.lookup id =
    if id ∈ gone.map Edge.id then none else graph.descriptions.lookup id
  nodes : result.1.nodes = graph.nodes
  places : result.1.places = graph.places
  assigned : result.1.assigned = graph.assigned
  idStart : result.1.idStart = graph.idStart

theorem Removed.refl (graph : Graph) : Removed graph [] (graph, []) :=
  ⟨.rfl, rfl, fun _ => rfl, rfl, rfl, rfl, rfl⟩

variable {graph : Graph} {gone : List Edge} {result : Graph × List Description}

/-- The edges that stay have ids of their own as well. -/
theorem Removed.nodup (h : Removed graph gone result) (hids : (graph.edges.map Edge.id).Nodup) :
    ((gone.map Edge.id) ++ result.1.edges.map Edge.id).Nodup := by
  rw [← List.map_append]
  exact (h.edges.map Edge.id).nodup_iff.mpr hids

/-- An edge that stays keeps its description. -/
theorem Removed.describedBy?_eq (h : Removed graph gone result)
    (hids : (graph.edges.map Edge.id).Nodup) {edge : Edge} (hedge : edge ∈ result.1.edges) :
    result.1.describedBy? edge = graph.describedBy? edge := by
  have hstays : edge.id ∉ gone.map Edge.id := fun hgone =>
    (List.disjoint_of_nodup_append (h.nodup hids)) hgone (List.mem_map_of_mem hedge)
  rw [describedBy?, h.lookup, if_neg hstays, describedBy?]

/-- Two removals, one after the other. -/
theorem Removed.trans (h : Removed graph gone result) (hids : (graph.edges.map Edge.id).Nodup)
    {gone' : List Edge} {result' : Graph × List Description}
    (h' : Removed result.1 gone' result') :
    Removed graph (gone ++ gone') (result'.1, result.2 ++ result'.2) where
  edges := by
    rw [List.append_assoc]
    exact (h'.edges.append_left gone).trans h.edges
  descriptions := by
    have hgone : gone'.filterMap result.1.describedBy? = gone'.filterMap graph.describedBy? :=
      List.filterMap_congr fun edge hedge => h.describedBy?_eq hids
        (h'.edges.subset (List.mem_append_left _ hedge))
    rw [List.filterMap_append, h.descriptions, h'.descriptions, hgone]
  lookup id := by
    rw [h'.lookup, h.lookup, List.map_append]
    by_cases hgone : id ∈ gone.map Edge.id <;> by_cases hgone' : id ∈ gone'.map Edge.id <;>
      simp [hgone, hgone']
  nodes := h'.nodes.trans h.nodes
  places := h'.places.trans h.places
  assigned := h'.assigned.trans h.assigned
  idStart := h'.idStart.trans h.idStart

/-- One edge is removed, and those at lower places do not move. -/
theorem removed_dropEdge {front back : List Edge} {edge : Edge}
    (hedges : graph.edges = front ++ edge :: back) :
    (∃ moved, (graph.dropEdge front.length).1.edges = front ++ moved) ∧
      Removed graph [edge]
        ((graph.dropEdge front.length).1, (graph.dropEdge front.length).2.toList) := by
  obtain ⟨moved, hperm, hswap⟩ := swapRemove_append_cons front edge back
  have hdrop : graph.dropEdge front.length =
      ({ graph with
          edges := front ++ moved
          descriptions := Table.erase edge.id graph.descriptions },
        graph.describedBy? edge) := by
    simp [dropEdge, hedges, hswap]
  rw [hdrop]
  refine ⟨⟨moved, rfl⟩, ?_, ?_, fun id => ?_, rfl, rfl, rfl, rfl⟩
  · rw [hedges]
    exact ((hperm.append_left front).cons edge).trans List.perm_middle.symm
  · cases h : graph.describedBy? edge <;> simp [h]
  · simp [Table.lookup_erase]

/-! ## Removing what was chosen -/

/-- The places of the items that a test accepts, ascending. -/
def placesIn (items : List Edge) (chosen : Edge → Bool) : List Nat :=
  (List.range items.length).filter fun index =>
    match items[index]? with
    | some edge => chosen edge
    | none => false

theorem placesIn_concat (items : List Edge) (edge : Edge) (chosen : Edge → Bool) :
    placesIn (items ++ [edge]) chosen =
      placesIn items chosen ++ if chosen edge then [items.length] else [] := by
  have hbelow : ∀ index ∈ List.range items.length, (items ++ [edge])[index]? = items[index]? :=
    fun index hindex => List.getElem?_append_left (List.mem_range.mp hindex)
  unfold placesIn
  rw [List.length_append, List.length_singleton, List.range_succ, List.filter_append]
  congr 1
  · exact List.filter_congr fun index hindex => by rw [hbelow index hindex]
  · simp [List.filter_cons]

/-- Removing the chosen ones of the first edges, from the highest place down. -/
theorem removed_removeEdges (chosen : Edge → Bool) (front : List Edge) :
    ∀ {graph : Graph} {back : List Edge}, graph.edges = front ++ back →
      (graph.edges.map Edge.id).Nodup →
      Removed graph (front.filter chosen).reverse
        (graph.removeEdges (placesIn front chosen).reverse) := by
  induction front using List.reverseRecOn with
  | nil => exact fun _ _ => Removed.refl _
  | append_singleton front edge ih =>
      intro graph back hedges hids
      rw [List.append_assoc, List.singleton_append] at hedges
      rw [placesIn_concat, List.filter_append, List.reverse_append, List.reverse_append]
      cases hchosen : chosen edge with
      | false => simpa [List.filter_cons, hchosen] using ih hedges hids
      | true =>
          -- the lower places still hold the same edges when this one is gone
          obtain ⟨⟨moved, hmoved⟩, hfirst⟩ := removed_dropEdge hedges
          have hrest := ih hmoved (List.nodup_append.mp (hfirst.nodup hids)).2.1
          simpa [List.filter_cons, hchosen, removeEdges] using hfirst.trans hids hrest

/-- What is removed is what was chosen. -/
theorem removed_removeWhere (hids : (graph.edges.map Edge.id).Nodup) (chosen : Edge → Bool) :
    Removed graph (graph.edges.filter chosen).reverse (graph.removeWhere chosen) :=
  removed_removeEdges chosen graph.edges (List.append_nil _).symm hids

/-- The edges that were not chosen stay. -/
theorem perm_edges_removeWhere (hids : (graph.edges.map Edge.id).Nodup) (chosen : Edge → Bool) :
    (graph.removeWhere chosen).1.edges.Perm (graph.edges.filter fun edge => !chosen edge) := by
  have hparted : ((graph.edges.filter chosen).reverse ++ graph.edges.filter fun edge =>
      !chosen edge).Perm graph.edges :=
    ((List.reverse_perm _).append_right _).trans (List.filter_append_perm chosen graph.edges)
  have hremoved := (removed_removeWhere hids chosen).edges
  exact (List.perm_append_left_iff _).mp (hremoved.trans hparted.symm)

/-! ## Removing the edge with an id -/

/-- The places of the edges with an id are the place of the first one. -/
theorem placesIn_id (items : List Edge) (hids : (items.map Edge.id).Nodup) (id : String) :
    placesIn items (fun edge => edge.id = id) =
      (items.findIdx? fun edge => edge.id = id).toList := by
  induction items using List.reverseRecOn with
  | nil => rfl
  | append_singleton front edge ih =>
      rw [List.map_append] at hids
      obtain ⟨hfront, -, hother⟩ := List.nodup_append.mp hids
      rw [placesIn_concat, ih hfront, List.findIdx?_append]
      cases hfound : front.findIdx? fun edge => edge.id = id with
      | none => by_cases hid : edge.id = id <;> simp [hid]
      | some place =>
          obtain ⟨hplace, hid, -⟩ := List.findIdx?_eq_some_iff_getElem.mp hfound
          have hlater : edge.id ≠ id := fun hsame => by
            refine hother _ (List.mem_map_of_mem (List.getElem_mem hplace)) edge.id
              (List.mem_singleton_self _) ?_
            rw [of_decide_eq_true hid, hsame]
          simp [hlater]

/-- To remove the first edge with an id is to remove all with this id. -/
theorem dropId_eq (hids : (graph.edges.map Edge.id).Nodup) (id : String) :
    graph.dropId id = (graph.removeWhere fun edge => edge.id = id).1 := by
  have hplaces : graph.select (fun edge => edge.id = id) = (graph.edgeIndex? id).toList :=
    placesIn_id graph.edges hids id
  rw [dropId, removeWhere, hplaces]
  cases graph.edgeIndex? id with
  | none => rfl
  | some place => rfl

end Graph

end Remodel
