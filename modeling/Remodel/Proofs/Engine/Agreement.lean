import Remodel.Proofs.Engine.Updates

/-!
# Two ways to the same description

A transformation is performed by the description of the catalog, or by that of an edge of the
graph.  After every run no pair has two descriptions in the catalog or two edges in the graph, and
where there is an edge, both ways lead to the same description (`path_eq_lookup?_after`).

That the graph's descriptions stand in the catalog is part of `InStep`; what is counted here are
the descriptions and edges themselves, equal ones included.
-/

namespace Remodel

namespace Engine

variable {engine : Engine} {source target : String}

/-! ## Descriptions of a pair -/

theorem length_ofPair_change_le (engine : Engine) (single : Change) (source target : String) :
    ((engine.change single).catalog.ofPair source target).length ≤
      max 1 (engine.catalog.ofPair source target).length := by
  cases single with
  | save description =>
      change ((engine.catalog.save _).ofPair source target).length ≤ _
      rw [Catalog.ofPair_save]
      split
      · exact Nat.le_max_left _ _
      · exact Nat.le_max_right _ _
  -- a removal drops descriptions, and types do not matter
  | delete description =>
      exact Nat.le_trans (Catalog.length_ofPair_deleteAllExact_le _ source target)
        (Nat.le_max_right _ _)
  | dropFile fileName =>
      exact Nat.le_trans (Catalog.length_ofPair_deleteAllExact_le _ source target)
        (Nat.le_max_right _ _)
  | activate typeId =>
      rcases change_activate engine typeId with heq | ⟨descriptor, heq⟩ <;> rw [heq] <;>
        exact Nat.le_max_right _ _
  | deactivate typeId => exact Nat.le_max_right _ _

theorem length_ofPair_changeAll_le (changes : List Change) (source target : String)
    (h : (engine.catalog.ofPair source target).length ≤ 1) :
    ((engine.changeAll changes).catalog.ofPair source target).length ≤ 1 := by
  induction changes generalizing engine with
  | nil => exact h
  | cons single rest ih =>
      have hstep := length_ofPair_change_le engine single source target
      exact ih (by omega)

/-! ## Edges of a pair -/

/-- Two edges of a pair are one. -/
theorem InStep.edge_unique (h : engine.InStep) {first second : Edge}
    (hfirst : first ∈ engine.graph.edges) (hsecond : second ∈ engine.graph.edges)
    (hjoins : engine.graph.joins source target first = true)
    (hjoins' : engine.graph.joins source target second = true) : first = second := by
  obtain ⟨a, ha, hdescribes⟩ := h.graph.described first hfirst
  obtain ⟨b, hb, hdescribes'⟩ := h.graph.described second hsecond
  rw [h.graph.joins_eq hdescribes] at hjoins
  rw [h.graph.joins_eq hdescribes'] at hjoins'
  have hsame : a = b :=
    h.single ⟨first, hfirst, ha⟩ ⟨second, hsecond, hb⟩ (Description.connects_congr hjoins hjoins')
  have hids : first.id = second.id := by
    have hid := hdescribes.id
    rw [hsame, hdescribes'.id] at hid
    exact (Option.some.inj hid).symm
  exact List.inj_on_of_nodup_map h.graph.ids hfirst hsecond hids

/-- The edges of a pair are none or a single one. -/
theorem InStep.edges_of_pair (h : engine.InStep) (source target : String) :
    engine.graph.edges.filter (engine.graph.joins source target) = [] ∨
      ∃ edge ∈ engine.graph.edges, engine.graph.joins source target edge = true ∧
        engine.graph.edges.filter (engine.graph.joins source target) = [edge] := by
  have hnodup : (engine.graph.edges.filter (engine.graph.joins source target)).Nodup :=
    (List.Nodup.of_map Edge.id h.graph.ids).filter _
  have hmem : ∀ edge ∈ engine.graph.edges.filter (engine.graph.joins source target),
      edge ∈ engine.graph.edges ∧ engine.graph.joins source target edge = true :=
    fun edge hedge => List.mem_filter.mp hedge
  cases hjoined : engine.graph.edges.filter (engine.graph.joins source target) with
  | nil => exact Or.inl rfl
  | cons edge rest =>
      rw [hjoined] at hnodup hmem
      obtain ⟨hedge, hjoins⟩ := hmem edge List.mem_cons_self
      refine Or.inr ⟨edge, hedge, hjoins, ?_⟩
      cases rest with
      | nil => rfl
      | cons second others =>
          obtain ⟨hsecond, hjoins'⟩ := hmem second (List.mem_cons_of_mem _ List.mem_cons_self)
          have hsame := h.edge_unique hedge hsecond hjoins hjoins'
          exact absurd (hsame ▸ List.mem_cons_self) (List.nodup_cons.mp hnodup).1

/-! ## Performing -/

/-- Where the catalog and the graph have the same description, it does not matter which is asked. -/
theorem perform_eq_performAlong {description : Description}
    (hlookup : engine.catalog.lookup? source target = some description)
    (hpath : engine.graph.path source target [] = .ok description) (model : Model) :
    engine.perform source target model = engine.performAlong source target [] model := by
  unfold perform performAlong
  rw [hlookup, hpath]
  rfl

/-- **A pair has one description, whichever way it is looked up.**  After every run the catalog
has at most one description for a pair.  The graph has no edge for it or a single one, and the
description of this edge is that of the catalog, so that both ways of performing a transformation
give the same. -/
theorem path_eq_lookup?_after (types : TypeTable) (idStart : String) (run : List Update)
    (source target : String) :
    (((new types idStart).after run).catalog.ofPair source target).length ≤ 1 ∧
      (((new types idStart).after run).graph.edges.filter
          (((new types idStart).after run).graph.joins source target) = [] ∨
        ∃ edge description,
          ((new types idStart).after run).graph.edges.filter
            (((new types idStart).after run).graph.joins source target) = [edge] ∧
          ((new types idStart).after run).graph.path source target [] = .ok description ∧
          ((new types idStart).after run).catalog.lookup? source target = some description ∧
          ∀ model, ((new types idStart).after run).perform source target model =
            ((new types idStart).after run).performAlong source target [] model) := by
  have h := inStep_after types idStart run
  refine ⟨?_, ?_⟩
  · rw [(inStep_new types idStart).after_eq]
    exact length_ofPair_changeAll_le _ source target (Nat.zero_le 1)
  · rcases h.edges_of_pair source target with hnone | ⟨edge, hedge, hjoins, hsingle⟩
    · exact Or.inl hnone
    · obtain ⟨description, hdescribed, hdescribes⟩ := h.graph.described edge hedge
      have hheld : ((new types idStart).after run).graph.Holds description :=
        ⟨edge, hedge, hdescribed⟩
      have hpair : description.connects source target = true := by
        rw [← h.graph.joins_eq hdescribes, hjoins]
      have hpath := h.path_eq_iff.mpr ⟨hheld, hpair⟩
      have hlookup := h.catalog.lookup?_eq (h.listed hheld) hpair
      exact Or.inr ⟨edge, description, hsingle, hpath, hlookup,
        perform_eq_performAlong hlookup hpath⟩

end Engine

end Remodel
