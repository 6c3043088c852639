import Remodel.Proofs.Graph.WellFormed

/-!
# What a graph holds

A well-formed graph is known by the descriptions of its edges (`Holds`).  A removal is told by what
is held afterwards and by what it gives: `holds_removeWhere` and `mem_removeWhere` for a test that
the description of an edge decides, and from them the same for a pair and for a file.  The test of
the removal for a description is decided in this way as well (`wants_eq`).
-/

namespace Remodel

namespace Graph

/-- A description is that of an edge. -/
def Holds (graph : Graph) (description : Description) : Prop :=
  ∃ edge ∈ graph.edges, graph.describedBy? edge = some description

variable {graph : Graph}

theorem WellFormed.holds_iff (h : graph.WellFormed) {description : Description} :
    graph.Holds description ↔ ∃ edge ∈ graph.edges,
      graph.describedBy? edge = some description ∧ graph.Describes edge description := by
  refine ⟨fun ⟨edge, hedge, hlookup⟩ => ⟨edge, hedge, hlookup, ?_⟩,
    fun ⟨edge, hedge, hlookup, _⟩ => ⟨edge, hedge, hlookup⟩⟩
  obtain ⟨found, hfound, hdescribes⟩ := h.described edge hedge
  obtain rfl : found = description := Option.some.inj (hfound.symm.trans hlookup)
  exact hdescribes

/-! ## Removals -/

section Removal

variable {chosen : Edge → Bool} {test : Description → Bool}

/-- What stays are the descriptions that were not chosen. -/
theorem WellFormed.holds_removeWhere (h : graph.WellFormed)
    (hchosen : ∀ {edge description}, graph.Describes edge description →
      chosen edge = test description) {description : Description} :
    (graph.removeWhere chosen).1.Holds description ↔
      graph.Holds description ∧ test description = false := by
  have hremoved := removed_removeWhere h.ids chosen
  have hstays : ∀ edge, edge ∈ (graph.removeWhere chosen).1.edges ↔
      edge ∈ graph.edges ∧ chosen edge = false := fun edge => by
    rw [(perm_edges_removeWhere h.ids chosen).mem_iff]
    simp
  constructor
  · rintro ⟨edge, hedge, hlookup⟩
    rw [hremoved.describedBy?_eq h.ids hedge] at hlookup
    obtain ⟨hmem, hunchosen⟩ := (hstays edge).mp hedge
    obtain ⟨found, hfound, hdescribes⟩ := h.described edge hmem
    obtain rfl : found = description := Option.some.inj (hfound.symm.trans hlookup)
    exact ⟨⟨edge, hmem, hlookup⟩, (hchosen hdescribes).symm.trans hunchosen⟩
  · rintro ⟨hheld, htest⟩
    obtain ⟨edge, hmem, hlookup, hdescribes⟩ := h.holds_iff.mp hheld
    have hedge := (hstays edge).mpr ⟨hmem, (hchosen hdescribes).trans htest⟩
    exact ⟨edge, hedge, (hremoved.describedBy?_eq h.ids hedge).trans hlookup⟩

/-- What is given are the descriptions that were chosen. -/
theorem WellFormed.mem_removeWhere (h : graph.WellFormed)
    (hchosen : ∀ {edge description}, graph.Describes edge description →
      chosen edge = test description) {description : Description} :
    description ∈ (graph.removeWhere chosen).2 ↔
      graph.Holds description ∧ test description = true := by
  rw [(removed_removeWhere h.ids chosen).descriptions]
  simp only [List.mem_filterMap, List.mem_reverse, List.mem_filter]
  constructor
  · rintro ⟨edge, ⟨hmem, hedge⟩, hlookup⟩
    obtain ⟨found, hfound, hdescribes⟩ := h.described edge hmem
    obtain rfl : found = description := Option.some.inj (hfound.symm.trans hlookup)
    exact ⟨⟨edge, hmem, hlookup⟩, (hchosen hdescribes).symm.trans hedge⟩
  · rintro ⟨hheld, htest⟩
    obtain ⟨edge, hmem, hlookup, hdescribes⟩ := h.holds_iff.mp hheld
    exact ⟨edge, ⟨hmem, (hchosen hdescribes).trans htest⟩, hlookup⟩

end Removal

theorem WellFormed.holds_dropBetween (h : graph.WellFormed) {source target : String}
    {description : Description} : (graph.dropBetween source target).1.Holds description ↔
      graph.Holds description ∧ description.connects source target = false :=
  h.holds_removeWhere fun hdescribes => h.joins_eq hdescribes source target

theorem WellFormed.mem_dropBetween (h : graph.WellFormed) {source target : String}
    {description : Description} : description ∈ (graph.dropBetween source target).2 ↔
      graph.Holds description ∧ description.connects source target = true :=
  h.mem_removeWhere fun hdescribes => h.joins_eq hdescribes source target

/-- Whether a description asks for the removal of one of its pair, told by the id. -/
def wants (graph : Graph) (description held : Description) : Bool :=
  held.connects description.source description.target &&
    match description.id with
    | some id => held.id = some id
    | none => held.id.any graph.isAssigned

theorem WellFormed.wants_eq (h : graph.WellFormed) {edge : Edge} {held : Description}
    (hdescribes : graph.Describes edge held) (description : Description) :
    (graph.joins description.source description.target edge && graph.asksFor description edge) =
      graph.wants description held := by
  rw [wants, h.joins_eq hdescribes, hdescribes.id]
  congr 1
  unfold asksFor
  cases description.id <;> simp

theorem Describes.isOfFile_eq {edge : Edge} {description : Description}
    (h : graph.Describes edge description) (fileName : String) :
    decide (edge.fileName = some fileName) = decide (description.fileName = some fileName) := by
  rw [h.fileName]

theorem WellFormed.holds_dropFile (h : graph.WellFormed) {fileName : String}
    {description : Description} : (graph.dropFile fileName).1.Holds description ↔
      graph.Holds description ∧ decide (description.fileName = some fileName) = false :=
  h.holds_removeWhere fun hdescribes => hdescribes.isOfFile_eq fileName

theorem WellFormed.mem_dropFile (h : graph.WellFormed) {fileName : String}
    {description : Description} : description ∈ (graph.dropFile fileName).2 ↔
      graph.Holds description ∧ decide (description.fileName = some fileName) = true :=
  h.mem_removeWhere fun hdescribes => hdescribes.isOfFile_eq fileName

end Graph

end Remodel
