import Remodel.Proofs.Graph.Origins

/-!
# Given and assigned ids

Assigned ids are told from given ones by how they begin only, and a given id may begin in any way.
So a given id can get in the way of the assigned ones twice:

* a description without an id is added beside what is there (`AddsAside`) unless an edge that is
  there was given the very id that is assigned next (`addsAside_iff`);
* a removal for a description without an id takes the edges of the pair that were added without
  one and no others (`RemovesUnnamed`) unless an edge of the pair was given an id that begins as
  the assigned ones do (`removesUnnamed_iff`).
-/

namespace Remodel

namespace Graph

variable {graph : Graph}

/-! ## What an addition and a removal leave -/

/-- The edges with other ids stay when one is added, each with its description. -/
theorem WellFormed.kept_addAs (h : graph.WellFormed) {id : String} {edge : Edge}
    (hedge : edge ∈ graph.edges) (hid : edge.id ≠ id) (description : Description) :
    edge ∈ (graph.addAs id description).edges ∧
      (graph.addAs id description).describedBy? edge = graph.describedBy? edge := by
  have hstays : edge ∈ (graph.removeWhere fun edge => edge.id = id).1.edges := by
    rw [(perm_edges_removeWhere h.ids _).mem_iff]
    simp [hedge, hid]
  obtain ⟨added, hedges, -⟩ := edges_link (graph.removeWhere fun edge => edge.id = id).1 id
    { description with id := some id }
  rw [h.addAs_eq]
  constructor
  · rw [hedges]
    exact List.mem_append_left _ hstays
  · rw [describedBy?_link_of_ne hid]
    exact (removed_removeWhere h.ids _).describedBy?_eq h.ids hstays

theorem WellFormed.kept_add (h : graph.WellFormed) {description : Description} {edge : Edge}
    (hedge : edge ∈ graph.edges) (hid : edge.id ≠ (graph.add description).2) :
    edge ∈ (graph.add description).1.edges ∧
      (graph.add description).1.describedBy? edge = graph.describedBy? edge := by
  unfold Graph.add at hid ⊢
  cases hgiven : description.id with
  | some id =>
      simp only [hgiven] at hid ⊢
      exact h.kept_addAs hedge hid description
  | none =>
      simp only [hgiven] at hid ⊢
      exact h.assignId.kept_addAs hedge hid description

/-- A removal leaves the edges that it does not ask for, each with its description. -/
theorem WellFormed.mem_edges_remove (h : graph.WellFormed) {description : Description}
    {edge : Edge} : edge ∈ (graph.remove description).1.edges ↔ edge ∈ graph.edges ∧
      ¬ (graph.joins description.source description.target edge = true ∧
        graph.asksFor description edge = true) := by
  rw [remove, (perm_edges_removeWhere h.ids _).mem_iff, List.mem_filter, Bool.not_eq_true',
    ← Bool.not_eq_true, Bool.and_eq_true]

theorem WellFormed.describedBy?_remove (h : graph.WellFormed) {description : Description}
    {edge : Edge} (hedge : edge ∈ (graph.remove description).1.edges) :
    (graph.remove description).1.describedBy? edge = graph.describedBy? edge :=
  (removed_removeWhere h.ids _).describedBy?_eq h.ids hedge

/-! ## Origins of edges -/

section Origins

variable {idStart : String} {history : History} {edge : Edge}

/-- Every edge was added for a description with its id or for one without an id. -/
theorem Recorded.named_or_unnamed (h : Recorded idStart graph history) (hwell : graph.WellFormed)
    (hnumbered : history.Numbered idStart) (hedge : edge ∈ graph.edges) :
    history.IsNamed edge.id ∨ history.IsUnnamed edge.id := by
  obtain ⟨given, horigin, -⟩ := h.describedBy?_eq hwell hedge
  cases hid : given.id with
  | none => exact Or.inr ⟨given, horigin, hid⟩
  | some id =>
      have hname := hnumbered.named _ (History.mem_of_origin? horigin) id hid
      exact Or.inl ⟨given, horigin, by rw [hid, ← hname]⟩

/-- The id of an edge that was added without one begins as assigned ids do. -/
theorem History.IsUnnamed.startsWith (h : history.IsUnnamed edge.id)
    (hnumbered : history.Numbered idStart) : idStart.toList <+: edge.id.toList := by
  obtain ⟨given, horigin, hid⟩ := h
  obtain ⟨number, -, hname⟩ := hnumbered.unnamed _ (History.mem_of_origin? horigin) hid
  change edge.id = idStart ++ Text.ofNat number at hname
  rw [hname, String.toList_append]
  exact List.prefix_append _ _

/-- The id of an edge that was added without one is not the next to be assigned. -/
theorem History.IsUnnamed.ne_next (h : history.IsUnnamed edge.id)
    (hnumbered : history.Numbered idStart) :
    edge.id ≠ idStart ++ Text.ofNat (history.unnamedCount + 1) := by
  intro hnext
  obtain ⟨given, horigin, hid⟩ := h
  have hnamed := hnumbered.named_of_eq_next (History.mem_of_origin? horigin) hnext
  cases hid.symm.trans hnamed

theorem Recorded.asksFor_iff (h : Recorded idStart graph history) {description : Description}
    (hid : description.id = none) :
    graph.asksFor description edge = true ↔ idStart.toList <+: edge.id.toList := by
  rw [asksFor, hid, isAssigned, h.start, List.isPrefixOf_iff_prefix]

end Origins

/-! ## Adding without an id -/

/-- Whether an addition, given by the graph after it and the id of the new edge, comes under an id
that no edge had, and leaves every edge and every description that was there. -/
structure AddsAside (graph : Graph) (added : Graph × String) : Prop where
  fresh : ∀ edge ∈ graph.edges, edge.id ≠ added.2
  edges : ∀ edge ∈ graph.edges, edge ∈ added.1.edges
  descriptions : ∀ id description, graph.description? id = some description →
    added.1.description? id = some description

/-- An addition under an id that no edge has. -/
theorem WellFormed.addsAside (h : graph.WellFormed) {description : Description}
    (hfresh : ∀ edge ∈ graph.edges, edge.id ≠ (graph.add description).2) :
    graph.AddsAside (graph.add description) where
  fresh := hfresh
  edges edge hedge := (h.kept_add hedge (hfresh edge hedge)).1
  descriptions id held hheld := by
    have hheld : graph.descriptions.lookup id = some held := hheld
    obtain ⟨edge, hedge, rfl⟩ := h.used id (by rw [hheld]; rfl)
    exact (h.kept_add hedge (hfresh edge hedge)).2.trans hheld

/-- **An assigned id is new unless it was given.**  After every run, a description without an id
comes under the number that follows those assigned before, which none of the additions without an
id had.  No edge has it, and everything stays as it is, exactly if it is not the given id of an
edge that is there; otherwise this edge is the only one that goes. -/
theorem addsAside_iff (idStart : String) (run : List Change) {description : Description}
    (hid : description.id = none) :
    let graph := (empty idStart).after run
    let history := History.ofRun idStart run
    let added := graph.add description
    added.2 = idStart ++ Text.ofNat (history.unnamedCount + 1) ∧
      (∀ addition ∈ history, addition.1 = added.2 → addition.2.id = some added.2) ∧
      (graph.AddsAside added ↔
        ∀ edge ∈ graph.edges, history.IsNamed edge.id → edge.id ≠ added.2) ∧
      ∀ edge ∈ graph.edges, edge.id ≠ added.2 →
        edge ∈ added.1.edges ∧ added.1.describedBy? edge = graph.describedBy? edge := by
  intro graph history added
  have hwell : graph.WellFormed := wellFormed_after idStart run
  have hrecorded : Recorded idStart graph history := recorded_after idStart run
  have hnumbered : history.Numbered idStart := History.numbered_ofRun idStart run
  have hnext : added.2 = idStart ++ Text.ofNat (history.unnamedCount + 1) := by
    rw [hrecorded.id_add description, History.nextId, hid, Option.getD_none]
  refine ⟨hnext, fun addition haddition heq => ?_, ⟨fun haside edge hedge _ => ?_, ?_⟩,
    fun edge hedge hother => hwell.kept_add hedge hother⟩
  · rw [← heq]
    exact hnumbered.named_of_eq_next haddition (heq.trans hnext)
  · exact haside.fresh edge hedge
  · intro hgiven
    refine hwell.addsAside fun edge hedge => ?_
    rcases hrecorded.named_or_unnamed hwell hnumbered hedge with hnamed | hunnamed
    · exact hgiven edge hedge hnamed
    · exact fun heq => hunnamed.ne_next hnumbered (heq.trans hnext)

/-! ### An id that is given before it is assigned -/

namespace Taken

def run : List Change := [.add { Description.new "A" "B" with id := some "internal-1" }]

/-- The first id that is assigned is that of an edge of another pair, which goes. -/
theorem not_addsAside_taken :
    let graph := (empty defaultIdStart).after run
    let added := graph.add (Description.new "C" "D")
    ¬ graph.AddsAside added ∧ ∃ edge ∈ graph.edges, edge.id = added.2 ∧ edge ∉ added.1.edges := by
  intro graph added
  have hgone : ∃ edge ∈ graph.edges, edge.id = added.2 ∧ edge ∉ added.1.edges := by
    decide +kernel
  refine ⟨fun haside => ?_, hgone⟩
  obtain ⟨edge, hedge, hid, -⟩ := hgone
  exact haside.fresh edge hedge hid

/-- The given id is free again, and one was assigned, when it is the next to be assigned. -/
def freed : List Change :=
  [.add { Description.new "A" "B" with id := some "internal-2" },
    .add (Description.new "A" "B"),
    .add { Description.new "A" "C" with id := some "internal-3" },
    .remove { Description.new "A" "B" with id := some "internal-2" }]

theorem addsAside_freed :
    (Description.new "C" "D").id = none ∧
      ((empty defaultIdStart).after freed).AddsAside
        (((empty defaultIdStart).after freed).add (Description.new "C" "D")) :=
  ⟨rfl, (addsAside_iff defaultIdStart freed rfl).2.2.1.mpr (by decide +kernel)⟩

end Taken

/-! ## Removing without an id -/

/-- Whether a removal takes those edges of the pair of a description that were added without an id,
and no others. -/
def RemovesUnnamed (graph : Graph) (history : History) (description : Description) : Prop :=
  ∀ edge ∈ graph.edges, edge ∈ (graph.remove description).1.edges ↔
    ¬ (graph.joins description.source description.target edge = true ∧
      history.IsUnnamed edge.id)

instance (graph : Graph) (history : History) (description : Description) :
    Decidable (graph.RemovesUnnamed history description) :=
  inferInstanceAs (Decidable (∀ edge ∈ graph.edges, _ ↔ _))

/-- **A removal without an id spares given ids unless they look assigned.**  After every run, what
goes for a description without an id are the edges of its pair that were added without an id or with
one that begins as the assigned ones do; what stays keeps its description.  So exactly the edges
that were added without an id go if and only if no edge of the pair was given such an id. -/
theorem removesUnnamed_iff (idStart : String) (run : List Change) {description : Description}
    (hid : description.id = none) :
    let graph := (empty idStart).after run
    let history := History.ofRun idStart run
    let left := (graph.remove description).1
    let joined := graph.joins description.source description.target
    (graph.RemovesUnnamed history description ↔
      ∀ edge ∈ graph.edges, joined edge = true → history.IsNamed edge.id →
        ¬ idStart.toList <+: edge.id.toList) ∧
      (∀ edge, edge ∈ left.edges ↔ edge ∈ graph.edges ∧
        ¬ (joined edge = true ∧ (history.IsUnnamed edge.id ∨
          history.IsNamed edge.id ∧ idStart.toList <+: edge.id.toList))) ∧
      ∀ edge ∈ left.edges, left.describedBy? edge = graph.describedBy? edge := by
  intro graph history left joined
  have hwell : graph.WellFormed := wellFormed_after idStart run
  have hrecorded : Recorded idStart graph history := recorded_after idStart run
  have hnumbered : history.Numbered idStart := History.numbered_ofRun idStart run
  have hstays : ∀ edge, edge ∈ left.edges ↔ edge ∈ graph.edges ∧
      ¬ (joined edge = true ∧ idStart.toList <+: edge.id.toList) := by
    intro edge
    rw [hwell.mem_edges_remove, hrecorded.asksFor_iff hid]
  have hbegins : ∀ edge ∈ graph.edges, (idStart.toList <+: edge.id.toList ↔
      history.IsUnnamed edge.id ∨
        history.IsNamed edge.id ∧ idStart.toList <+: edge.id.toList) := by
    intro edge hedge
    constructor
    · intro hstart
      rcases hrecorded.named_or_unnamed hwell hnumbered hedge with hnamed | hunnamed
      · exact Or.inr ⟨hnamed, hstart⟩
      · exact Or.inl hunnamed
    · rintro (hunnamed | ⟨-, hstart⟩)
      · exact hunnamed.startsWith hnumbered
      · exact hstart
  refine ⟨⟨fun hremoves edge hedge hjoined hnamed hstart => ?_, fun hspared edge hedge => ?_⟩,
    fun edge => ?_, fun edge hedge => hwell.describedBy?_remove hedge⟩
  · -- such an edge goes, although it was not added without an id
    have hgoes : edge ∉ left.edges := fun hleft => ((hstays edge).mp hleft).2 ⟨hjoined, hstart⟩
    obtain ⟨-, given, horigin, hnone⟩ := not_not.mp (mt (hremoves edge hedge).mpr hgoes)
    obtain ⟨given', horigin', hsome⟩ := hnamed
    obtain rfl := Option.some.inj (horigin.symm.trans horigin')
    cases hnone.symm.trans hsome
  · rw [hstays, and_iff_right hedge]
    refine not_congr (and_congr_right fun hjoined => ?_)
    refine ⟨fun hstart => ?_, fun hunnamed => hunnamed.startsWith hnumbered⟩
    rcases (hbegins edge hedge).mp hstart with hunnamed | ⟨hnamed, -⟩
    · exact hunnamed
    · exact absurd hstart (hspared edge hedge hjoined hnamed)
  · rw [hstays]
    exact and_congr_right fun hedge => not_congr (and_congr_right fun _ => hbegins edge hedge)

/-! ### A given id that looks assigned -/

namespace Lookalike

def run : List Change := [.add { Description.new "A" "B" with id := some "internal-rules" }]

/-- An edge that was given its id goes with those that were not. -/
theorem not_removesUnnamed_lookalike :
    ¬ ((empty defaultIdStart).after run).RemovesUnnamed (History.ofRun defaultIdStart run)
      (Description.new "A" "B") := by
  decide +kernel

/-- Only an edge of another pair was given an id that looks assigned. -/
def mixed : List Change :=
  [.add (Description.new "A" "B"), .add { Description.new "A" "B" with id := some "custom" },
    .add { Description.new "B" "A" with id := some "internal-rules" },
    .add (Description.new "A" "B"), .dropFile "none"]

theorem removesUnnamed_mixed :
    (Description.new "A" "B").id = none ∧
      ((empty defaultIdStart).after mixed).RemovesUnnamed (History.ofRun defaultIdStart mixed)
        (Description.new "A" "B") :=
  ⟨rfl, (removesUnnamed_iff defaultIdStart mixed rfl).1.mpr (by decide +kernel)⟩

end Lookalike

end Graph

end Remodel
