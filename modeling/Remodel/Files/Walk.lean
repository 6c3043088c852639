import Remodel.Files.Tree

/-!
# Walking through directories

The files below a directory, in ascending order of names; what is in a directory comes
in the place of the directory.
-/

namespace Remodel

/-- A file that a walk met: its path, its path from where the walk began, and its
content. -/
structure FoundFile where
  path : String
  relative : String
  content : Codec.Bytes
  deriving Repr, DecidableEq, Inhabited

mutual

/-- The files of a node with the given path and relative path. -/
def FileNode.walk (path relative : String) : FileNode → List FoundFile
  | .file content => [⟨path, relative, content⟩]
  | .directory entries => walkEntries path relative entries

/-- The files of entries inside a directory with the given path and relative path. -/
def walkEntries (path relative : String) : List (String × FileNode) → List FoundFile
  | [] => []
  | (name, node) :: rest =>
    node.walk (Path.join path name) (Path.join relative name) ++ walkEntries path relative rest

end

/-- The files of what a path names; none if it names nothing. -/
def FileTree.walk (tree : FileTree) (path : String) : List FoundFile :=
  match tree.find path with
  | .ok location => location.node.walk path ""
  | .error _ => []

end Remodel
