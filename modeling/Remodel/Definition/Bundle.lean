import Remodel.Codec.Sha256
import Remodel.Definition.Reader
import Remodel.Files.Walk

/-!
# Definition files

The descriptions of a file, and those of all definition files below a directory.  Each
description keeps the path of its file.

## Strategy

The files of a directory are chosen by name first and then read one after another; the
first one that cannot be read ends the whole.
-/

namespace Remodel.Definition

/-- Which files of a directory are definitions: those with an extension whose relative
path begins with none of the skipped texts. -/
structure Selection where
  extension : String
  skipped : List String
  deriving Repr, DecidableEq, Inhabited

/-- The extension of definition files unless another one is wanted. -/
def defaultExtension : String := "transformation"

/-- What relative paths of definition files do not begin with, unless something else is
wanted. -/
def defaultSkipped : List String := ["target/", ".git/"]

/-- The choice of files unless another one is wanted. -/
def defaultSelection : Selection := ⟨defaultExtension, defaultSkipped⟩

/-- Whether a file is chosen. -/
def Selection.chooses (selection : Selection) (found : FoundFile) : Bool :=
  Path.extension? found.path = some selection.extension &&
    !selection.skipped.any fun start =>
      start.toList.isPrefixOf (Text.replace "\\" "/" found.relative).toList

/-- A definition file with its descriptions. -/
structure LoadedFile where
  path : String
  descriptions : List Description
  deriving Repr, DecidableEq, Inhabited

/-- The definition files of a directory, and the digest of their contents. -/
structure Bundle where
  files : List LoadedFile
  hash : String
  deriving Repr, DecidableEq, Inhabited

/-- The number of descriptions. -/
def Bundle.size (bundle : Bundle) : Nat :=
  (bundle.files.flatMap LoadedFile.descriptions).length

/-- The descriptions in the content of a file; a definition that cannot be read is
reported. -/
def readContent (types : TypeTable) (path : String) (content : Codec.Bytes) :
    Attempt Error (List Description) := do
  let text ← (FileTree.textOf content).mapError Error.file
  let descriptions ← tryCatch (read types text) fun error => do
    Traced.note (.definitionFailed path error.message)
    throw error
  return descriptions.map fun description => { description with fileName := some path }

/-- The descriptions in a file. -/
def load (types : TypeTable) (files : FileTree) (path : String) :
    Attempt Error (List Description) := do
  readContent types path (← (files.readBytes path).mapError Error.file)

/-- The descriptions of several files. -/
def loadAll (types : TypeTable) : List FoundFile → Attempt Error (List LoadedFile)
  | [] => return []
  | found :: rest => do
    let descriptions ← readContent types found.path found.content
    return ⟨found.path, descriptions⟩ :: (← loadAll types rest)

/-- The definition files below a directory. -/
def loadDirectory (types : TypeTable) (files : FileTree) (directory : String)
    (selection : Selection) : Attempt Error Bundle := do
  let chosen := (files.walk directory).filter selection.chooses
  let read ← loadAll types chosen
  return ⟨read, Codec.Sha256.hexDigest (chosen.flatMap FoundFile.content)⟩

end Remodel.Definition
