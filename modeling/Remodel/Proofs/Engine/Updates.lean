import Mathlib.Data.List.Induction
import Remodel.Proofs.Engine.InStep
import Remodel.Proofs.Trace

/-!
# Runs of an engine

Whatever an engine is told to do is a sequence of few kinds of changes.  Several descriptions are
saved one after the other; to replace the descriptions of a file is to drop the file and to save
the new ones (`exchangeFile_eq`), although the catalog is brought in step only at the end.  An
update that fails changes nothing.

So what every change keeps holds after every run.  The catalog and the graph stay in step as far
as `InStep` says, and the pairs on which they differ are those that were robbed of their edge
(`Robbed`).
-/

namespace Remodel

namespace Engine

/-- A change of the descriptions or the types in use. -/
inductive Change
  | save (description : Description)
  | delete (description : Description)
  | dropFile (fileName : String)
  | activate (typeId : String)
  | deactivate (typeId : String)

/-- The engine after a change; a type that is not known is not activated. -/
def change (engine : Engine) : Change → Engine
  | .save description => (engine.save description).1
  | .delete description => (engine.delete description).1
  | .dropFile fileName => (engine.dropFile fileName).1
  | .activate typeId => (engine.activate typeId).toOption.getD engine
  | .deactivate typeId => (engine.deactivate typeId).value

/-- The engine after several changes. -/
def changeAll (engine : Engine) (changes : List Change) : Engine := changes.foldl change engine

/-- What an engine can be told to do. -/
inductive Update
  | change (change : Change)
  | saveAll (descriptions : List Description)
  | addFile (files : FileTree) (path : String)
  | rereadFile (files : FileTree) (path : String)
  | loadDirectory (files : FileTree) (directory : String) (selection : Definition.Selection)

/-- The engine after an update; one that fails leaves it as it is. -/
def update (engine : Engine) : Update → Engine
  | .change single => engine.change single
  | .saveAll descriptions => (engine.saveAll descriptions).1
  | .addFile files path => ((engine.addFile files path).result.toOption.map Prod.fst).getD engine
  | .rereadFile files path =>
    ((engine.rereadFile files path).result.toOption.map Prod.fst).getD engine
  | .loadDirectory files directory selection =>
    ((engine.loadDirectory files directory selection).result.toOption.map Prod.fst).getD engine

/-- The engine after a run of updates. -/
def after (engine : Engine) (run : List Update) : Engine := run.foldl update engine

/-- The changes that replace the descriptions of a file. -/
def exchanges (fileName : String) (descriptions : List Description) : List Change :=
  .dropFile fileName ::
    descriptions.map fun description => .save { description with fileName := some fileName }

/-- The changes that an update makes. -/
def Update.changes (types : TypeTable) : Update → List Change
  | .change single => [single]
  | .saveAll descriptions => descriptions.map .save
  | .addFile files path =>
    match (Definition.load types files path).result with
    | .ok descriptions => descriptions.map .save
    | .error _ => []
  | .rereadFile files path =>
    match (Definition.load types files path).result with
    | .ok descriptions => exchanges path descriptions
    | .error _ => []
  | .loadDirectory files directory selection =>
    match (Definition.loadDirectory types files directory selection).result with
    | .ok bundle => bundle.files.flatMap fun file => exchanges file.path file.descriptions
    | .error _ => []

/-- The pair lost its edge to the description of another pair, and was not saved since. -/
def Robbed (engine : Engine) (changes : List Change) (source target : String) : Prop :=
  ∃ before description rest, changes = before ++ .save description :: rest ∧
    (engine.changeAll before).Robs description source target ∧
    ∀ later, Change.save later ∈ rest → later.connects source target = false

variable {engine : Engine} {source target : String}

/-! ## Changes -/

/-- The engine with another graph that has the same edges with the same descriptions. -/
structure Retyped (engine other : Engine) : Prop where
  types : other.types = engine.types
  catalog : other.catalog = engine.catalog
  graph : other.graph.WellFormed
  edges : other.graph.edges = engine.graph.edges
  descriptions : other.graph.descriptions = engine.graph.descriptions

theorem change_activate (engine : Engine) (typeId : String) :
    engine.change (.activate typeId) = engine ∨ ∃ descriptor : Descriptor,
      engine.change (.activate typeId) =
        { engine with graph := engine.graph.insertType descriptor.typeId } := by
  cases hresolve : engine.types.resolve typeId with
  | error fault => exact Or.inl (by simp [change, activate, hresolve, Except.toOption])
  | ok descriptor =>
      exact Or.inr ⟨descriptor, by simp [change, activate, hresolve, Except.toOption]⟩

theorem InStep.retyped_activate (h : engine.InStep) (typeId : String) :
    engine.Retyped (engine.change (.activate typeId)) := by
  rcases change_activate engine typeId with heq | ⟨descriptor, heq⟩ <;> rw [heq]
  · exact ⟨rfl, rfl, h.graph, rfl, rfl⟩
  · exact ⟨rfl, rfl, h.graph.insertType _, Graph.edges_node _ _, Graph.descriptions_node _ _⟩

theorem InStep.retyped_deactivate (h : engine.InStep) (typeId : String) :
    engine.Retyped (engine.change (.deactivate typeId)) :=
  ⟨rfl, rfl, h.graph.dropType typeId, Graph.edges_dropType _ _, Graph.descriptions_dropType _ _⟩

theorem Retyped.holds_iff {other : Engine} (h : engine.Retyped other) {description : Description} :
    other.graph.Holds description ↔ engine.graph.Holds description := by
  simp only [Graph.Holds, Graph.describedBy?, h.edges, h.descriptions]

theorem InStep.retyped (h : engine.InStep) {other : Engine} (hother : engine.Retyped other) :
    other.InStep where
  graph := hother.graph
  catalog := by rw [hother.catalog]; exact h.catalog
  single ha hb := h.single (hother.holds_iff.mp ha) (hother.holds_iff.mp hb)
  listed hheld := by rw [hother.catalog]; exact h.listed (hother.holds_iff.mp hheld)

theorem InStep.stranded_retyped (h : engine.InStep) {other : Engine}
    (hother : engine.Retyped other) :
    other.Stranded source target ↔ engine.Stranded source target := by
  unfold Stranded canTransform
  rw [(h.retyped hother).hasPath_eq_false_iff, h.hasPath_eq_false_iff, hother.catalog]
  simp only [hother.holds_iff]

/-- Every change keeps the engine in step. -/
theorem InStep.change (h : engine.InStep) (single : Change) : (engine.change single).InStep := by
  cases single with
  | save description => exact h.save description
  | delete description => exact h.afterRemoval fun hdescribes => h.graph.wants_eq hdescribes description
  | dropFile fileName => exact h.afterRemoval fun hdescribes => hdescribes.isOfFile_eq fileName
  | activate typeId => exact h.retyped (h.retyped_activate typeId)
  | deactivate typeId => exact h.retyped (h.retyped_deactivate typeId)

/-- A pair is stranded by being robbed, and stays so unless it is saved. -/
theorem InStep.stranded_change (h : engine.InStep) (single : Change) :
    (engine.change single).Stranded source target ↔
      (engine.Stranded source target ∧
          ∀ saved, single = .save saved → saved.connects source target = false) ∨
        ∃ saved, single = .save saved ∧ engine.Robs saved source target := by
  cases single with
  | save description =>
      refine h.stranded_save.trans ?_
      simp only [Change.save.injEq, exists_eq_left', forall_eq']
      constructor
      · rintro ⟨hother, hstranded | hrobs⟩
        · exact Or.inl ⟨hstranded, hother⟩
        · exact Or.inr hrobs
      · rintro (⟨hstranded, hother⟩ | hrobs)
        · exact ⟨hother, Or.inl hstranded⟩
        · exact ⟨hrobs.1, Or.inr hrobs⟩
  -- no other change saves anything
  | delete description =>
      exact (h.stranded_afterRemoval fun hdescribes => h.graph.wants_eq hdescribes description).trans
        (by simp)
  | dropFile fileName =>
      exact (h.stranded_afterRemoval fun hdescribes => hdescribes.isOfFile_eq fileName).trans
        (by simp)
  | activate typeId => exact (h.stranded_retyped (h.retyped_activate typeId)).trans (by simp)
  | deactivate typeId => exact (h.stranded_retyped (h.retyped_deactivate typeId)).trans (by simp)

theorem types_change (engine : Engine) (single : Change) :
    (engine.change single).types = engine.types := by
  cases single with
  | activate typeId =>
      rcases change_activate engine typeId with heq | ⟨descriptor, heq⟩ <;> rw [heq]
  | _ => rfl

/-! ## Sequences of changes -/

@[simp] theorem changeAll_nil (engine : Engine) : engine.changeAll [] = engine := rfl

theorem changeAll_append (engine : Engine) (first second : List Change) :
    engine.changeAll (first ++ second) = (engine.changeAll first).changeAll second :=
  List.foldl_append

theorem types_changeAll (engine : Engine) (changes : List Change) :
    (engine.changeAll changes).types = engine.types := by
  induction changes generalizing engine with
  | nil => rfl
  | cons single rest ih => exact (ih _).trans (types_change engine single)

theorem InStep.changeAll (h : engine.InStep) (changes : List Change) :
    (engine.changeAll changes).InStep := by
  induction changes generalizing engine with
  | nil => exact h
  | cons single rest ih => exact ih (h.change single)

/-- One more change: the pair was robbed before and is not saved now, or is robbed now. -/
theorem robbed_concat (changes : List Change) (last : Change) :
    engine.Robbed (changes ++ [last]) source target ↔
      (engine.Robbed changes source target ∧
          ∀ saved, last = .save saved → saved.connects source target = false) ∨
        ∃ saved, last = .save saved ∧ (engine.changeAll changes).Robs saved source target := by
  constructor
  · rintro ⟨before, description, rest, hsplit, hrobs, hrest⟩
    -- the robbing change is the last one, or the last one comes after it
    rcases List.eq_nil_or_concat' rest with rfl | ⟨init, final, rfl⟩
    · obtain ⟨rfl, hlast⟩ := List.append_inj' hsplit rfl
      exact Or.inr ⟨description, List.singleton_inj.mp hlast, hrobs⟩
    · rw [← List.cons_append, ← List.append_assoc] at hsplit
      obtain ⟨rfl, hlast⟩ := List.append_inj' hsplit rfl
      obtain rfl := List.singleton_inj.mp hlast
      exact Or.inl ⟨⟨before, description, init, rfl, hrobs, fun later hlater =>
        hrest later (List.mem_append_left _ hlater)⟩, fun saved hsaved =>
        hrest saved (hsaved ▸ List.mem_append_right _ (List.mem_singleton_self _))⟩
  · rintro (⟨⟨before, description, rest, rfl, hrobs, hrest⟩, hlast⟩ | ⟨saved, rfl, hrobs⟩)
    · refine ⟨before, description, rest ++ [last], by simp, hrobs, fun later hlater => ?_⟩
      rcases List.mem_append.mp hlater with hlater | hlater
      · exact hrest later hlater
      · exact hlast later (List.mem_singleton.mp hlater).symm
    · exact ⟨changes, saved, [], rfl, hrobs, fun _ h => absurd h List.not_mem_nil⟩

/-- The pairs that are stranded after some changes are those that were robbed. -/
theorem stranded_changeAll_iff (h : engine.InStep)
    (hnone : ¬ engine.Stranded source target) (changes : List Change) :
    (engine.changeAll changes).Stranded source target ↔
      engine.Robbed changes source target := by
  induction changes using List.reverseRecOn with
  | nil =>
      refine iff_of_false hnone ?_
      rintro ⟨before, description, rest, hsplit, -⟩
      simp at hsplit
  | append_singleton changes last ih =>
      rw [changeAll_append, robbed_concat, ← ih]
      exact (h.changeAll changes).stranded_change last

/-! ## Updates -/

theorem saveAll_eq (engine : Engine) (descriptions : List Description) :
    (engine.saveAll descriptions).1 = engine.changeAll (descriptions.map .save) := by
  induction descriptions generalizing engine with
  | nil => rfl
  | cons description rest ih => exact ih (engine.save description).1

/-- The engine as it is when a part of a file has been loaded again. -/
def reloadedTo (engine : Engine) (reloaded : Graph.Reloaded) : Engine :=
  { engine with
    graph := reloaded.graph
    catalog := (engine.catalog.deleteAllExact reloaded.removed).saveAll reloaded.added }

/-- One more description is loaded by saving it: those that the graph gives as removed are of its
pair, which the catalog drops anyway. -/
theorem reloadedTo_add (engine : Engine) {reloaded : Graph.Reloaded}
    (hgraph : reloaded.graph.WellFormed) (fileName : String) (description : Description) :
    engine.reloadedTo (reloaded.add fileName description) =
      ((engine.reloadedTo reloaded).save { description with fileName := some fileName }).1 := by
  have hreplaced : ∀ other ∈
      (reloaded.graph.replace { description with fileName := some fileName }).removed,
      other.connects description.source description.target = true :=
    fun other hother => (hgraph.mem_replace.mp hother).2
  exact congrArg (fun catalog => Engine.mk engine.types catalog _)
    (Catalog.saveAll_replaced hreplaced)

theorem reloadedTo_addAll (engine : Engine) {reloaded : Graph.Reloaded}
    (hgraph : reloaded.graph.WellFormed) (fileName : String) (descriptions : List Description) :
    engine.reloadedTo (descriptions.foldl (Graph.Reloaded.add fileName) reloaded) =
      (engine.reloadedTo reloaded).changeAll (descriptions.map fun description =>
        .save { description with fileName := some fileName }) := by
  induction descriptions generalizing reloaded with
  | nil => rfl
  | cons description rest ih =>
      rw [List.foldl_cons, ih (hgraph.replace _), reloadedTo_add engine hgraph]
      rfl

/-- To replace the descriptions of a file is to drop the file and to save the new ones. -/
theorem exchangeFile_eq (h : engine.InStep) (fileName : String) (descriptions : List Description) :
    (engine.exchangeFile fileName descriptions).1 =
      engine.changeAll (exchanges fileName descriptions) :=
  reloadedTo_addAll engine (h.graph.removeWhere fun edge => edge.fileName = some fileName)
    fileName descriptions

/-- To load a directory is to replace the descriptions of its files. -/
theorem replaceFiles_eq (h : engine.InStep) (files : List Definition.LoadedFile) :
    engine.replaceFiles files =
      engine.changeAll (files.flatMap fun file => exchanges file.path file.descriptions) := by
  unfold replaceFiles
  induction files generalizing engine with
  | nil => rfl
  | cons file rest ih =>
      rw [List.foldl_cons, List.flatMap_cons, changeAll_append, exchangeFile_eq h]
      exact ih (h.changeAll _)

/-- An update makes its changes. -/
theorem InStep.update_eq (h : engine.InStep) (update : Update) :
    engine.update update = engine.changeAll (update.changes engine.types) := by
  cases update with
  | change single => rfl
  | saveAll descriptions => exact saveAll_eq engine descriptions
  | addFile files path =>
      cases hload : (Definition.load engine.types files path).result with
      | error fault =>
          simp [Engine.update, addFile, Update.changes, hload, Except.toOption]
      | ok descriptions =>
          simp [Engine.update, addFile, Update.changes, hload, saveAll_eq, Except.toOption]
  | rereadFile files path =>
      cases hload : (Definition.load engine.types files path).result with
      | error fault =>
          simp [Engine.update, rereadFile, Update.changes, hload, Except.toOption]
      | ok descriptions =>
          simp [Engine.update, rereadFile, Update.changes, hload, exchangeFile_eq h,
            Except.toOption]
  | loadDirectory files directory selection =>
      cases hload : (Definition.loadDirectory engine.types files directory selection).result with
      | error fault =>
          simp [Engine.update, loadDirectory, Update.changes, hload, Except.toOption]
      | ok bundle =>
          simp [Engine.update, loadDirectory, Update.changes, hload, replaceFiles_eq h,
            Except.toOption]

/-- A run makes the changes of its updates. -/
theorem InStep.after_eq (h : engine.InStep) (run : List Update) :
    engine.after run = engine.changeAll (run.flatMap (Update.changes engine.types)) := by
  unfold after
  induction run generalizing engine with
  | nil => rfl
  | cons update rest ih =>
      rw [List.foldl_cons, List.flatMap_cons, changeAll_append, h.update_eq,
        ih (h.changeAll _), types_changeAll]

/-! ## Every run -/

/-- After every run the catalog and the graph are in step, as far as the catalog has what the
graph holds. -/
theorem inStep_after (types : TypeTable) (idStart : String) (run : List Update) :
    ((new types idStart).after run).InStep := by
  rw [(inStep_new types idStart).after_eq]
  exact (inStep_new types idStart).changeAll _

/-- **The catalog and the graph differ on the pairs that were robbed of their edge.**  Where the
graph has a path, the catalog has a description; the converse fails for a pair exactly if its edge
went to a description of another pair, which was saved under the same id, and the pair was not
saved since. -/
theorem canTransform_iff_hasPath (types : TypeTable) (idStart : String) (run : List Update)
    (source target : String) :
    (((new types idStart).after run).graph.hasPath source target [] = true →
        ((new types idStart).after run).canTransform source target = true) ∧
      ((((new types idStart).after run).canTransform source target = true ↔
          ((new types idStart).after run).graph.hasPath source target [] = true) ↔
        ¬ (new types idStart).Robbed (run.flatMap (Update.changes types)) source target) := by
  have hstep := inStep_after types idStart run
  have hnone : ¬ (new types idStart).Stranded source target := fun h => by
    simp [Stranded, canTransform, new, Catalog.canTransform, Catalog.empty] at h
  refine ⟨hstep.canTransform_of_hasPath, ?_⟩
  rw [← stranded_changeAll_iff (inStep_new types idStart) hnone]
  have hafter := (inStep_new types idStart).after_eq run
  rw [show (new types idStart).types = types from rfl] at hafter
  rw [← hafter, Stranded, not_and, Bool.not_eq_false]
  exact ⟨fun h => h.mp, fun h => ⟨h, hstep.canTransform_of_hasPath⟩⟩

/-! ## An edge that goes to another pair -/

namespace Clash

def run : List Update :=
  [.change (.save { Description.new "A" "B" with id := some "x" }),
    .change (.save { Description.new "C" "D" with id := some "x" })]

/-- The second description has taken the edge of the first. -/
theorem canTransform_without_path :
    ((new TypeTable.empty Graph.defaultIdStart).after run).canTransform "A" "B" = true ∧
      ((new TypeTable.empty Graph.defaultIdStart).after run).graph.hasPath "A" "B" [] = false := by
  decide

end Clash

end Engine

end Remodel
