import Remodel.Proofs.Graph.Adding

/-!
# Runs of a graph

Whatever is done to a graph is a sequence of changes.  To load a file again is to drop it and then
to replace, one after the other, the edges of the pairs of its descriptions
(`graph_rereadFile`).  So what inserting a type, dropping one, removing edges and adding one keep is
an invariant of every run (`Invariant.after`); that a graph is well formed is one
(`wellFormed_after`).
-/

namespace Remodel

namespace Graph

/-- What can be done to a graph. -/
inductive Change
  | insertType (typeId : String)
  | dropType (typeId : String)
  | add (description : Description)
  | replace (description : Description)
  | remove (description : Description)
  | dropFile (fileName : String)
  | rereadFile (fileName : String) (descriptions : List Description)

/-- The graph after a change. -/
def change (graph : Graph) : Change → Graph
  | .insertType typeId => graph.insertType typeId
  | .dropType typeId => (graph.dropType typeId).value
  | .add description => (graph.add description).1
  | .replace description => (graph.replace description).graph
  | .remove description => (graph.remove description).1
  | .dropFile fileName => (graph.dropFile fileName).1
  | .rereadFile fileName descriptions => (graph.rereadFile fileName descriptions).graph

/-- The graph after a run of changes. -/
def after (graph : Graph) (run : List Change) : Graph := run.foldl change graph

/-- The graph after the edges of several pairs have been replaced. -/
def replaceAll (graph : Graph) (descriptions : List Description) : Graph :=
  descriptions.foldl (fun graph description => (graph.replace description).graph) graph

theorem graph_foldl_add (fileName : String) (descriptions : List Description)
    (reloaded : Reloaded) :
    (descriptions.foldl (Reloaded.add fileName) reloaded).graph = reloaded.graph.replaceAll
      (descriptions.map fun description => { description with fileName := some fileName }) := by
  induction descriptions generalizing reloaded with
  | nil => rfl
  | cons description rest ih => exact ih (reloaded.add fileName description)

/-- Loading a file again is dropping it and replacing what its descriptions replace. -/
theorem graph_rereadFile (graph : Graph) (fileName : String) (descriptions : List Description) :
    (graph.rereadFile fileName descriptions).graph = (graph.dropFile fileName).1.replaceAll
      (descriptions.map fun description => { description with fileName := some fileName }) :=
  graph_foldl_add fileName descriptions _

/-- What holds of a graph and still does after the steps that every change is made of. -/
structure Invariant (holds : Graph → Prop) : Prop where
  insertType : ∀ {graph}, holds graph → ∀ typeId, holds (graph.insertType typeId)
  dropType : ∀ {graph}, holds graph → ∀ typeId, holds (graph.dropType typeId).value
  removeWhere : ∀ {graph}, holds graph → ∀ chosen, holds (graph.removeWhere chosen).1
  add : ∀ {graph}, holds graph → ∀ description, holds (graph.add description).1

variable {graph : Graph}

namespace Invariant

variable {holds : Graph → Prop} (invariant : Invariant holds)

include invariant

theorem replace (h : holds graph) (description : Description) :
    holds (graph.replace description).graph :=
  invariant.add (invariant.removeWhere h _) description

theorem replaceAll (h : holds graph) (descriptions : List Description) :
    holds (graph.replaceAll descriptions) :=
  List.foldlRecOn descriptions _ h fun _ hbefore description _ =>
    invariant.replace hbefore description

/-- Every change keeps an invariant. -/
theorem change (h : holds graph) (change : Change) : holds (graph.change change) := by
  cases change with
  | insertType typeId => exact invariant.insertType h typeId
  | dropType typeId => exact invariant.dropType h typeId
  | add description => exact invariant.add h description
  | replace description => exact invariant.replace h description
  | remove description => exact invariant.removeWhere h _
  | dropFile fileName => exact invariant.removeWhere h _
  | rereadFile fileName descriptions =>
      rw [Graph.change, graph_rereadFile]
      exact invariant.replaceAll (invariant.removeWhere h _) _

theorem after (h : holds graph) (run : List Change) : holds (graph.after run) :=
  List.foldlRecOn run Graph.change h fun _ hbefore change _ => invariant.change hbefore change

end Invariant

theorem WellFormed.invariant : Invariant WellFormed where
  insertType h := h.insertType
  dropType h := h.dropType
  removeWhere h := h.removeWhere
  add h := h.add

theorem WellFormed.change (h : graph.WellFormed) (change : Change) :
    (graph.change change).WellFormed := WellFormed.invariant.change h change

/-- Every graph that is ever reached is well formed. -/
theorem wellFormed_after (idStart : String) (run : List Change) :
    ((empty idStart).after run).WellFormed :=
  WellFormed.invariant.after (wellFormed_empty idStart) run

end Graph

end Remodel
