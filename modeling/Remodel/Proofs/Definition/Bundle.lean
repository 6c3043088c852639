import Remodel.Definition.Bundle
import Remodel.Proofs.Files.Walking
import Remodel.Proofs.Trace

/-!
# Results of reading definition files

What is read of one file is a function of its path and its content (`result_readContent`).  A
directory is loaded exactly if all of its definition files are, and these are then in the order of
the walk (`loadDirectory_eq_ok_iff`); otherwise the first one that cannot be read decides the fault
(`loadDirectory_eq_error_iff`).

In a proper tree a file that a walk has found is the one that its path names
(`result_load_of_mem_filesBelow`), so that the files of a directory may be loaded one by one
(`load_of_loadDirectory`).
-/

namespace Remodel

/-- The description as one that was loaded from a file. -/
def Description.fromFile (fileName : String) (description : Description) : Description :=
  { description with fileName := some fileName }

/-- The text that was encoded is read back. -/
theorem FileTree.textOf_toUTF8 (text : String) :
    textOf text.toUTF8.data.toList = .ok text := by
  have hvalid : String.fromUTF8? ⟨text.toUTF8.data.toList.toArray⟩ = some text := by
    rw [Array.toArray_toList]
    exact dif_pos text.isValidUTF8
  rw [textOf, hvalid]

namespace Definition

/-! ## Files -/

/-- What a file with the given content holds. -/
theorem result_readContent (types : TypeTable) (path : String) (content : Codec.Bytes) :
    (readContent types path content).result =
      (FileTree.textOf content).mapError Error.file >>= fun text =>
        (read types text).result.map (List.map (.fromFile path)) := by
  rw [readContent, Attempt.result_bind, Attempt.result_except]
  congr 1
  funext text
  rw [Attempt.result_bind, Attempt.result_rethrow]
  cases (read types text).result <;> rfl

theorem result_load (types : TypeTable) (files : FileTree) (path : String) :
    (load types files path).result =
      (files.readBytes path).mapError Error.file >>= fun content =>
        (readContent types path content).result := by
  rw [load, Attempt.result_bind, Attempt.result_except]

theorem result_loadAll (types : TypeTable) (chosen : List FoundFile) :
    (loadAll types chosen).result = chosen.mapM fun found =>
      (readContent types found.path found.content).result.map (LoadedFile.mk found.path) := by
  induction chosen with
  | nil => rfl
  | cons found rest ih =>
      rw [loadAll, Attempt.result_bind, List.mapM_cons, ← ih]
      cases (readContent types found.path found.content).result with
      | error fault => rfl
      | ok descriptions =>
          simp only [ok_bind, Attempt.result_bind]
          rfl

/-! ## Directories -/

/-- The definition files below a directory, in the order of the walk. -/
def Selection.filesBelow (selection : Selection) (files : FileTree) (directory : String) :
    List FoundFile :=
  (files.walk directory).filter selection.chooses

variable {types : TypeTable} {files : FileTree} {directory : String} {selection : Selection}

theorem result_loadDirectory (types : TypeTable) (files : FileTree) (directory : String)
    (selection : Selection) :
    (loadDirectory types files directory selection).result =
      ((selection.filesBelow files directory).mapM fun found =>
        (readContent types found.path found.content).result.map (LoadedFile.mk found.path)).map
        fun loaded => ⟨loaded,
          Codec.Sha256.hexDigest ((selection.filesBelow files directory).flatMap
            FoundFile.content)⟩ := by
  rw [← result_loadAll, loadDirectory, Attempt.result_bind, Selection.filesBelow]
  cases (loadAll types ((files.walk directory).filter selection.chooses)).result <;> rfl

/-- A directory is loaded by loading all of its definition files. -/
theorem loadDirectory_eq_ok_iff {bundle : Bundle} :
    (loadDirectory types files directory selection).result = .ok bundle ↔
      List.Forall₂ (fun found file => file.path = found.path ∧
          (readContent types found.path found.content).result = .ok file.descriptions)
        (selection.filesBelow files directory) bundle.files ∧
      bundle.hash = Codec.Sha256.hexDigest
        ((selection.filesBelow files directory).flatMap FoundFile.content) := by
  obtain ⟨loaded, hash⟩ := bundle
  have hfile : ∀ (found : FoundFile) (file : LoadedFile),
      (readContent types found.path found.content).result.map (LoadedFile.mk found.path) =
          .ok file ↔
        file.path = found.path ∧
          (readContent types found.path found.content).result = .ok file.descriptions := by
    rintro found ⟨path, descriptions⟩
    rw [except_map_eq_ok_iff]
    constructor
    · rintro ⟨read, hread, hfile⟩
      obtain ⟨hpath, hdescriptions⟩ := LoadedFile.mk.inj hfile
      exact ⟨hpath.symm, hdescriptions ▸ hread⟩
    · rintro ⟨hpath, hread⟩
      exact ⟨descriptions, hread, congrArg (LoadedFile.mk · descriptions) hpath.symm⟩
  simp only [result_loadDirectory, except_map_eq_ok_iff, mapM_eq_ok_iff, hfile, Bundle.mk.injEq]
  constructor
  · rintro ⟨read, hread, rfl, hhash⟩
    exact ⟨hread, hhash.symm⟩
  · rintro ⟨hread, hhash⟩
    exact ⟨loaded, hread, rfl, hhash.symm⟩

/-- What the path of a found file names is what was found. -/
theorem result_load_of_mem_filesBelow (hproper : files.root.Proper) {found : FoundFile}
    (hfound : found ∈ selection.filesBelow files directory) :
    (load types files found.path).result =
      (readContent types found.path found.content).result := by
  rw [result_load, FileTree.readBytes_of_mem_walk hproper (List.mem_of_mem_filter hfound),
    mapError_ok, ok_bind]

/-- The files of a directory are loaded in the order of the walk, each as it is loaded alone. -/
theorem load_of_loadDirectory (hproper : files.root.Proper) {bundle : Bundle}
    (h : (loadDirectory types files directory selection).result = .ok bundle) :
    bundle.files.map LoadedFile.path =
        (selection.filesBelow files directory).map FoundFile.path ∧
      ∀ file ∈ bundle.files, (load types files file.path).result = .ok file.descriptions := by
  obtain ⟨hfiles, -⟩ := loadDirectory_eq_ok_iff.mp h
  have hload : ∀ found ∈ selection.filesBelow files directory,
      (load types files found.path).result =
        (readContent types found.path found.content).result :=
    fun _ hfound => result_load_of_mem_filesBelow hproper hfound
  generalize bundle.files = loaded, selection.filesBelow files directory = chosen
    at hfiles hload ⊢
  induction hfiles with
  | nil => exact ⟨rfl, fun _ h => absurd h List.not_mem_nil⟩
  | cons hfile _ ih =>
      obtain ⟨hpath, hread⟩ := hfile
      obtain ⟨hpaths, hrest⟩ := ih fun found hfound => hload found (List.mem_cons_of_mem _ hfound)
      refine ⟨congrArg₂ List.cons hpath hpaths, List.forall_mem_cons.mpr ⟨?_, hrest⟩⟩
      rw [hpath, hload _ (List.mem_cons_self ..), hread]

/-- The first definition file that cannot be loaded ends the whole. -/
theorem loadDirectory_eq_error_iff (hproper : files.root.Proper) {fault : Error} :
    (loadDirectory types files directory selection).result = .error fault ↔
      ∃ before found after, selection.filesBelow files directory = before ++ found :: after ∧
        (∀ earlier ∈ before, ∃ descriptions,
          (load types files earlier.path).result = .ok descriptions) ∧
        (load types files found.path).result = .error fault := by
  simp only [result_loadDirectory, except_map_eq_error_iff, mapM_eq_error_iff,
    except_map_eq_ok_iff]
  refine exists_congr fun before => exists_congr fun found => exists_congr fun after =>
    and_congr_right fun hchosen => ?_
  have hload : ∀ other ∈ before ++ found :: after, (load types files other.path).result =
      (readContent types other.path other.content).result :=
    fun other hother => result_load_of_mem_filesBelow hproper (hchosen ▸ hother)
  rw [hload found (List.mem_append_right _ (List.mem_cons_self ..))]
  refine and_congr_left' (forall₂_congr fun earlier hearlier => ?_)
  rw [hload earlier (List.mem_append_left _ hearlier)]
  constructor
  · rintro ⟨-, descriptions, hread, -⟩
    exact ⟨descriptions, hread⟩
  · rintro ⟨descriptions, hread⟩
    exact ⟨_, descriptions, hread, rfl⟩

end Definition

end Remodel
