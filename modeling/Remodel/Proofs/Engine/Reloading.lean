import Remodel.Proofs.Definition.Bundle
import Remodel.Proofs.Engine.Updates
import Remodel.Proofs.Graph.Replacing

/-!
# Loading a file again

A file whose descriptions have ids of their own is loaded twice, one time directly after the other.
The second time changes nothing: the catalog is the same list, and the graph has the same nodes and
the same edges with the same descriptions, whatever pairs and ids the descriptions of the file have
in common with each other and with others (`rereadFile_twice`).

## Strategy

To load a file again is to drop what came from it and to save its descriptions one after another
(`exchangeFile_of_ids`), so that the graph and the catalog can be looked at one by one.

* The graph exchanges the descriptions of the file for the new ones (`Graph.exchange_again`).  Only
  the order of its edges may change, since a removed edge leaves its place to the last one.
* The catalog has what it had for other pairs in front of what is saved, and all that is dropped
  the second time is of the pairs of the file (`Catalog.saveAll_again`).
-/

namespace Remodel

theorem Description.isSome_fromFile {descriptions : List Description}
    (hids : ∀ description ∈ descriptions, description.id.isSome = true) (fileName : String) :
    ∀ description ∈ descriptions.map (fromFile fileName), description.id.isSome = true := by
  simpa [fromFile] using hids

namespace Engine

/-- Two engines have the same catalog, and graphs that are alike. -/
structure SameContent (first second : Engine) : Prop where
  types : first.types = second.types
  catalog : first.catalog = second.catalog
  graph : Graph.Alike first.graph second.graph

theorem SameContent.refl (engine : Engine) : SameContent engine engine :=
  ⟨rfl, rfl, rfl, fun _ => rfl, .rfl, fun _ => rfl, rfl⟩

section Exchanging

variable {engine : Engine} {descriptions : List Description}
  (hids : ∀ description ∈ descriptions, description.id.isSome = true)

include hids

/-! ## Exchanging descriptions that have ids -/

theorem changeAll_save : engine.changeAll (descriptions.map .save) =
    { engine with
      catalog := engine.catalog.saveAll descriptions
      graph := engine.graph.replaceAll descriptions } := by
  induction descriptions generalizing engine with
  | nil => rfl
  | cons description rest ih =>
      obtain ⟨hid, hrest⟩ := List.forall_mem_cons.mp hids
      have hsave : engine.change (.save description) =
          { engine with
            catalog := engine.catalog.save description
            graph := (engine.graph.replace description).graph } := by
        rw [change, save, Graph.stored_replace hid]
      refine (ih hrest).trans ?_
      rw [hsave]
      rfl

/-- What came from the file is dropped, and its descriptions are saved. -/
theorem exchangeFile_of_ids (h : engine.InStep) (fileName : String) :
    (engine.exchangeFile fileName descriptions).1 =
      { engine with
        catalog := (engine.catalog.deleteAllExact (engine.graph.dropFile fileName).2).saveAll
          (descriptions.map (.fromFile fileName))
        graph := engine.graph.exchange fileName (descriptions.map (.fromFile fileName)) } := by
  rw [exchangeFile_eq h, exchanges, ← Function.comp_def Change.save, ← List.map_map]
  exact changeAll_save (Description.isSome_fromFile hids fileName)

theorem added_addAll (fileName : String) (reloaded : Graph.Reloaded) :
    (descriptions.foldl (Graph.Reloaded.add fileName) reloaded).added =
      reloaded.added ++ descriptions.map (.fromFile fileName) := by
  induction descriptions generalizing reloaded with
  | nil => simp
  | cons description rest ih =>
      obtain ⟨hid, hrest⟩ := List.forall_mem_cons.mp hids
      have hstored : (reloaded.graph.replace (description.fromFile fileName)).stored =
          description.fromFile fileName := Graph.stored_replace hid
      have hadded : (reloaded.add fileName description).added =
          reloaded.added ++ [description.fromFile fileName] :=
        congrArg (fun stored => reloaded.added ++ [stored]) hstored
      rw [List.foldl_cons, ih hrest, hadded, List.append_assoc, List.map_cons,
        List.singleton_append]

/-- The ids that are given are those of the file, whatever the engine is. -/
theorem ids_exchangeFile (engine : Engine) (fileName : String) :
    (engine.exchangeFile fileName descriptions).2 =
      (descriptions.map (.fromFile fileName)).filterMap Description.id :=
  congrArg (List.filterMap Description.id)
    ((added_addAll hids fileName _).trans (List.nil_append _))

/-- Exchanging the same descriptions again changes nothing. -/
theorem sameContent_exchange_again (h : engine.InStep) (fileName : String) : SameContent
    ((engine.exchangeFile fileName descriptions).1.exchangeFile fileName descriptions).1
    (engine.exchangeFile fileName descriptions).1 := by
  have hfrom := Description.isSome_fromFile hids fileName
  have hstep : (engine.exchangeFile fileName descriptions).1.InStep := by
    rw [exchangeFile_eq h]
    exact h.changeAll _
  have hagain := exchangeFile_of_ids hids hstep fileName
  -- what is dropped the second time is from the file, and so one of its descriptions
  have hdropped : ∀ other ∈ ((engine.exchangeFile fileName descriptions).1.graph.dropFile
      fileName).2, other ∈ descriptions.map (Description.fromFile fileName) := by
    intro other hother
    obtain ⟨hheld, hfile⟩ := hstep.graph.mem_dropFile.mp hother
    rw [exchangeFile_of_ids hids h] at hheld
    rcases (h.graph.holds_exchange hfrom).mp hheld with ⟨⟨-, hstays⟩, -⟩ | hlasting
    · exact absurd (hfile.symm.trans hstays) (by decide)
    · exact Description.lasting_subset _ hlasting
  have htypes := congrArg Engine.types hagain
  have hcatalog := congrArg Engine.catalog hagain
  have hgraph := congrArg Engine.graph hagain
  refine ⟨htypes, hcatalog.trans ?_, ?_⟩
  · rw [exchangeFile_of_ids hids h] at hdropped ⊢
    exact Catalog.saveAll_again _ fun other hother =>
      ⟨other, hdropped other hother, Description.connects_self other⟩
  · rw [hgraph, exchangeFile_of_ids hids h]
    exact h.graph.exchange_again hfrom

omit hids

/-! ## Loading again -/

theorem result_rereadFile (engine : Engine) (files : FileTree) (path : String) :
    (engine.rereadFile files path).result =
      (Definition.load engine.types files path).result.map (engine.exchangeFile path) := by
  rw [rereadFile, Attempt.result_bind]
  cases (Definition.load engine.types files path).result <;> rfl

/-- The engines that can be come by; the types may change between two updates. -/
inductive Reachable : Engine → Prop
  | new (types : TypeTable) (idStart : String) : Reachable (new types idStart)
  | update {engine : Engine} (h : Reachable engine) (update : Update) :
      Reachable (engine.update update)
  | retype {engine : Engine} (h : Reachable engine) (types : TypeTable) :
      Reachable { engine with types }

theorem Reachable.inStep {engine : Engine} (h : Reachable engine) : engine.InStep := by
  induction h with
  | new types idStart => exact inStep_new types idStart
  | update _ update ih =>
      rw [ih.update_eq]
      exact ih.changeAll _
  | retype _ types ih => exact ⟨ih.graph, ih.catalog, ih.single, ih.listed⟩

/-- **Loading a file again that has not changed changes nothing.**  Whatever was done before, if the
descriptions of a file have ids, then loading it a second time leaves the same catalog, and a graph
with the same nodes and edges and the same descriptions of these; and it gives the same ids, or has
the same fault, as the first time. -/
theorem rereadFile_twice {engine : Engine} (h : Reachable engine) (files : FileTree) (path : String)
    (hids : ∀ descriptions, (Definition.load engine.types files path).result = .ok descriptions →
      ∀ description ∈ descriptions, description.id.isSome = true) :
    SameContent
        ((engine.update (.rereadFile files path)).update (.rereadFile files path))
        (engine.update (.rereadFile files path)) ∧
      ((engine.update (.rereadFile files path)).rereadFile files path).result.map Prod.snd =
        (engine.rereadFile files path).result.map Prod.snd := by
  have hstep := h.inStep
  cases hload : (Definition.load engine.types files path).result with
  | error fault =>
      have hsame : engine.update (.rereadFile files path) = engine := by
        rw [update, result_rereadFile, hload]
        rfl
      rw [hsame, hsame]
      exact ⟨.refl engine, rfl⟩
  | ok descriptions =>
      have hupdate : ∀ other : Engine, other.types = engine.types →
          other.update (.rereadFile files path) = (other.exchangeFile path descriptions).1 := by
        intro other hother
        rw [update, result_rereadFile, hother, hload]
        rfl
      have htypes : (engine.exchangeFile path descriptions).1.types = engine.types := rfl
      rw [hupdate engine rfl, hupdate _ htypes, result_rereadFile, result_rereadFile, htypes, hload]
      refine ⟨sameContent_exchange_again (hids descriptions hload) hstep path, ?_⟩
      exact congrArg Except.ok ((ids_exchangeFile (hids descriptions hload) _ path).trans
        (ids_exchangeFile (hids descriptions hload) engine path).symm)

end Exchanging

/-! ### Pairs and ids that repeat -/

namespace Repeated

def table : TypeTable := TypeTable.empty.insertAll
  [Descriptor.named "A", Descriptor.named "B", Descriptor.named "C", Descriptor.named "D"]

def definition : String :=
  "<transformations><transformation source=\"A\" target=\"B\" id=\"x\"/>" ++
    "<transformation source=\"A\" target=\"B\" id=\"y\"/>" ++
    "<transformation source=\"C\" target=\"D\" id=\"x\"/></transformations>"

def files : FileTree := ⟨.directory [("pairs", .file definition.toUTF8.data.toList)], []⟩

def described (source target id : String) : Description :=
  ⟨source, target, some id, some "pairs", []⟩

theorem load_pairs : (Definition.load table files "pairs").result =
    .ok [described "A" "B" "x", described "A" "B" "y", described "C" "D" "x"] := by
  have hbytes : files.readBytes "pairs" = .ok definition.toUTF8.data.toList := by rfl
  have hread : (Definition.read table definition).result = .ok
      [⟨"A", "B", some "x", none, []⟩, ⟨"A", "B", some "y", none, []⟩,
        ⟨"C", "D", some "x", none, []⟩] := by
    decide +kernel
  rw [Definition.result_load, hbytes, mapError_ok, ok_bind, Definition.result_readContent,
    FileTree.textOf_toUTF8, mapError_ok, ok_bind, hread]
  rfl

/-- Both ids of the file are in use, and its pairs and ids repeat. -/
def engine : Engine :=
  ((new table "internal-").update
    (.change (.save ⟨"A", "B", some "x", some "other", []⟩))).update
      (.change (.save ⟨"D", "C", some "y", some "other", []⟩))

theorem rereadFile_twice_pairs :
    Reachable engine ∧
    (∀ descriptions, (Definition.load engine.types files "pairs").result = .ok descriptions →
      ∀ description ∈ descriptions, description.id.isSome = true) ∧
    SameContent
        ((engine.update (.rereadFile files "pairs")).update (.rereadFile files "pairs"))
        (engine.update (.rereadFile files "pairs")) ∧
      ((engine.update (.rereadFile files "pairs")).rereadFile files "pairs").result.map Prod.snd =
        (engine.rereadFile files "pairs").result.map Prod.snd := by
  have hreachable : Reachable engine := ((Reachable.new table "internal-").update _).update _
  have hids : ∀ descriptions, (Definition.load engine.types files "pairs").result =
      .ok descriptions → ∀ description ∈ descriptions, description.id.isSome = true := by
    intro descriptions hload
    have htypes : engine.types = table := rfl
    rw [htypes, load_pairs] at hload
    obtain rfl := Except.ok.inj hload
    decide
  exact ⟨hreachable, hids, rereadFile_twice hreachable files "pairs" hids⟩

end Repeated

end Engine

end Remodel
