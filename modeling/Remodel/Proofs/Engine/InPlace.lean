import Remodel.Proofs.Altering
import Remodel.Proofs.Engine.Reloading

/-!
# All or nothing

An engine is changed in place: what a computation has changed before it meets a fault stays changed.
The operations that load files are no exception, and yet each of them either succeeds or leaves the
engine as it was, because it reads everything before it changes anything.  What it does in place is
therefore what the operation gives as a value (`fileUpdates_allOrNothing`).

A directory that is loaded leaves the engine as it is when its definition files are loaded again one
after another, in the order of the walk.  Each of them is then read once more, in the engine that
the ones before it have left.

## Strategy

`InPlace` leaves an engine whatever the outcome is, so that a fault does not take back what was
changed.
Changes are computations that cannot fail, and so are sequences of them (`outcome_saveAll`,
`outcome_replaceFiles`); a fault can only come from loading, which changes nothing.
-/

namespace Remodel.Engine

open Altering

/-! ## Operations in place -/

/-- A computation that changes an engine in place. -/
abbrev InPlace (α : Type) := Altering Engine Error α

namespace InPlace

/-- Saves a description. -/
def save (description : Description) : InPlace String :=
  modifyGet fun engine => (engine.save description).swap

/-- Replaces the descriptions of a file. -/
def exchangeFile (fileName : String) (descriptions : List Description) : InPlace (List String) :=
  modifyGet fun engine => (engine.exchangeFile fileName descriptions).swap

/-- Loads the descriptions of a file and saves one after another. -/
def addFile (files : FileTree) (path : String) : InPlace Nat := do
  let descriptions ← (Definition.load (← get).types files path).result
  let _ ← descriptions.mapM save
  return descriptions.length

/-- Loads the descriptions of a file and replaces the earlier ones. -/
def rereadFile (files : FileTree) (path : String) : InPlace (List String) := do
  exchangeFile path (← (Definition.load (← get).types files path).result)

/-- Loads the definition files below a directory and replaces the earlier descriptions of one file
after another. -/
def loadDirectory (files : FileTree) (directory : String) (selection : Definition.Selection) :
    InPlace Definition.Bundle := do
  let bundle ← (Definition.loadDirectory (← get).types files directory selection).result
  bundle.files.forM fun file => discard (exchangeFile file.path file.descriptions)
  return bundle

end InPlace

/-! ## Outcomes -/

section Outcomes

variable (engine : Engine)

@[simp] theorem outcome_save (description : Description) :
    outcome engine (InPlace.save description) =
      (.ok (engine.save description).2, (engine.save description).1) := rfl

@[simp] theorem outcome_exchangeFile (fileName : String) (descriptions : List Description) :
    outcome engine (InPlace.exchangeFile fileName descriptions) =
      (.ok (engine.exchangeFile fileName descriptions).2,
        (engine.exchangeFile fileName descriptions).1) := rfl

theorem outcome_saveAll (descriptions : List Description) :
    outcome engine (descriptions.mapM InPlace.save) =
      (.ok (engine.saveAll descriptions).2, (engine.saveAll descriptions).1) := by
  induction descriptions generalizing engine with
  | nil => rfl
  | cons description rest ih =>
      rw [List.mapM_cons, outcome_bind, outcome_save]
      simp only [outcome_bind, ih, outcome_pure]
      rfl

theorem outcome_replaceFiles (files : List Definition.LoadedFile) :
    outcome engine (files.forM fun file =>
        discard (InPlace.exchangeFile file.path file.descriptions)) =
      (.ok (), engine.replaceFiles files) := by
  induction files generalizing engine with
  | nil => rfl
  | cons file rest ih =>
      rw [List.forM_eq_forM, List.forM_cons, outcome_bind]
      exact ih (engine.exchangeFile file.path file.descriptions).1

end Outcomes

/-! ## Operations -/

section Operations

variable (engine : Engine) (files : FileTree)

theorem outcome_addFile (path : String) :
    outcome engine (InPlace.addFile files path) =
      settled engine (engine.addFile files path).result := by
  have hresult : (engine.addFile files path).result =
      (Definition.load engine.types files path).result.map fun descriptions =>
        ((engine.saveAll descriptions).1, descriptions.length) := by
    rw [addFile, Attempt.result_bind]
    cases (Definition.load engine.types files path).result <;> rfl
  rw [hresult, InPlace.addFile, outcome_bind, outcome_get]
  simp only [outcome_bind, outcome_except]
  cases (Definition.load engine.types files path).result with
  | error fault => rfl
  | ok descriptions => simp [outcome_saveAll, settled, Except.map]

theorem outcome_rereadFile (path : String) :
    outcome engine (InPlace.rereadFile files path) =
      settled engine (engine.rereadFile files path).result := by
  rw [result_rereadFile, InPlace.rereadFile, outcome_bind, outcome_get]
  simp only [outcome_bind, outcome_except]
  cases (Definition.load engine.types files path).result <;> rfl

theorem result_loadDirectory (directory : String) (selection : Definition.Selection) :
    (engine.loadDirectory files directory selection).result =
      (Definition.loadDirectory engine.types files directory selection).result.map fun bundle =>
        (engine.replaceFiles bundle.files, bundle) := by
  rw [loadDirectory, Attempt.result_bind]
  cases (Definition.loadDirectory engine.types files directory selection).result <;> rfl

theorem outcome_loadDirectory (directory : String) (selection : Definition.Selection) :
    outcome engine (InPlace.loadDirectory files directory selection) =
      settled engine (engine.loadDirectory files directory selection).result := by
  rw [result_loadDirectory, InPlace.loadDirectory, outcome_bind, outcome_get]
  simp only [outcome_bind, outcome_except]
  cases (Definition.loadDirectory engine.types files directory selection).result with
  | error fault => rfl
  | ok bundle =>
      dsimp only
      rw [outcome_replaceFiles]
      rfl

/-- Files that are loaded one after another are replaced one after another: what a file holds does
not depend on what the files before it have changed. -/
theorem rereadFiles_eq {loaded : List Definition.LoadedFile}
    (h : ∀ file ∈ loaded,
      (Definition.load engine.types files file.path).result = .ok file.descriptions) :
    loaded.foldlM (fun current file =>
      (current.rereadFile files file.path).result.map Prod.fst) engine =
        .ok (engine.replaceFiles loaded) := by
  induction loaded generalizing engine with
  | nil => rfl
  | cons file rest ih =>
      obtain ⟨hfile, hrest⟩ := List.forall_mem_cons.mp h
      rw [List.foldlM_cons, result_rereadFile, hfile]
      exact ih (engine.exchangeFile file.path file.descriptions).1 hrest

/-- **Loading files is all or nothing.**  Each of the three operations does in place what it gives
as a value, and where it has a fault it leaves the engine as it was.  Loading a directory of a
proper tree has the fault of the first definition file that cannot be loaded, at whatever place; if
there is none, all files are loaded in the order of the walk, and the engine is the one that loading
them again one after another leads to, which succeeds for each. -/
theorem fileUpdates_allOrNothing :
    (∀ path, outcome engine (InPlace.addFile files path) =
      settled engine (engine.addFile files path).result) ∧
    (∀ path, outcome engine (InPlace.rereadFile files path) =
      settled engine (engine.rereadFile files path).result) ∧
    (∀ directory selection, outcome engine (InPlace.loadDirectory files directory selection) =
      settled engine (engine.loadDirectory files directory selection).result) ∧
    (files.root.Proper → ∀ directory selection,
      (∀ fault, (engine.loadDirectory files directory selection).result = .error fault ↔
        ∃ before found after, selection.filesBelow files directory = before ++ found :: after ∧
          (∀ earlier ∈ before, ∃ descriptions,
            (Definition.load engine.types files earlier.path).result = .ok descriptions) ∧
          (Definition.load engine.types files found.path).result = .error fault) ∧
      ∀ after bundle, (engine.loadDirectory files directory selection).result =
          .ok (after, bundle) →
        bundle.files.map Definition.LoadedFile.path =
          (selection.filesBelow files directory).map FoundFile.path ∧
        bundle.files.foldlM (fun current file =>
          (current.rereadFile files file.path).result.map Prod.fst) engine = .ok after) := by
  refine ⟨engine.outcome_addFile files, engine.outcome_rereadFile files,
    engine.outcome_loadDirectory files, fun hproper directory selection => ⟨?_, ?_⟩⟩
  · intro fault
    rw [result_loadDirectory, except_map_eq_error_iff]
    exact Definition.loadDirectory_eq_error_iff hproper
  · intro after bundle hresult
    rw [result_loadDirectory, except_map_eq_ok_iff] at hresult
    obtain ⟨loaded, hloaded, hafter⟩ := hresult
    obtain ⟨rfl, rfl⟩ := Prod.mk.inj hafter
    obtain ⟨hpaths, hfiles⟩ := Definition.load_of_loadDirectory hproper hloaded
    exact ⟨hpaths, engine.rereadFiles_eq files hfiles⟩

end Operations

/-! ### Files with the same pair, and one that cannot be loaded -/

namespace Overlapping

def table : TypeTable := TypeTable.empty.insertAll [Descriptor.named "A", Descriptor.named "B"]

def engine : Engine := .new table "internal-"

def defining (target : String) (id : String) : FileNode :=
  let text := "<transformation source=\"A\" target=\"" ++ target ++ "\" id=\"" ++ id ++ "\"/>"
  .file text.toUTF8.data.toList

/-- The files of one directory define the same pair; the second file of the other one needs a type
that is not known. -/
def files : FileTree :=
  [("good/a.transformation", defining "B" "x"), ("good/b.transformation", defining "B" "y"),
    ("bad/a.transformation", defining "B" "z"), ("bad/b.transformation", defining "C" "z")].foldl
    (fun files entry => files.put entry.1 entry.2) (.inDirectory [])

theorem proper_files : files.Proper := by
  have hempty : (FileTree.inDirectory []).Proper :=
    FileTree.proper_inDirectory fun _ h => absurd h List.not_mem_nil
  refine hempty.putAll ?_
  simp only [List.forall_mem_cons]
  exact ⟨.file _, .file _, .file _, .file _, fun _ h => absurd h List.not_mem_nil⟩

theorem fileUpdates_allOrNothing_overlapping :
    files.root.Proper ∧
    (∃ after bundle,
      (engine.loadDirectory files "good" Definition.defaultSelection).result =
          .ok (after, bundle) ∧
        bundle.files.map Definition.LoadedFile.path =
          ["good/a.transformation", "good/b.transformation"] ∧
        bundle.files.foldlM (fun current file =>
          (current.rereadFile files file.path).result.map Prod.fst) engine = .ok after) ∧
    ∃ fault, outcome engine (InPlace.loadDirectory files "bad" Definition.defaultSelection) =
      (.error fault, engine) := by
  have hproper := proper_files.root
  obtain ⟨-, -, houtcome, hdirectory⟩ := fileUpdates_allOrNothing engine files
  refine ⟨hproper, ?_, ?_⟩
  · obtain ⟨-, hloaded⟩ := hdirectory hproper "good" Definition.defaultSelection
    have hok : (engine.loadDirectory files "good" Definition.defaultSelection).result.isOk =
        true := by decide +kernel
    obtain ⟨⟨after, bundle⟩, hgood⟩ := isOk_iff.mp hok
    obtain ⟨hpaths, hagain⟩ := hloaded after bundle hgood
    have hfound : (Definition.defaultSelection.filesBelow files "good").map FoundFile.path =
        ["good/a.transformation", "good/b.transformation"] := by decide +kernel
    exact ⟨after, bundle, hgood, hpaths.trans hfound, hagain⟩
  · have hfails : (engine.loadDirectory files "bad" Definition.defaultSelection).result.isOk =
        false := by decide +kernel
    obtain ⟨fault, hbad⟩ := isOk_eq_false_iff.mp hfails
    exact ⟨fault, (houtcome "bad" Definition.defaultSelection).trans
      (congrArg (settled engine) hbad)⟩

end Overlapping

end Remodel.Engine
