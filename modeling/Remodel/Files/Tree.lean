import Remodel.Codec.Hex
import Remodel.Error
import Remodel.Files.Path
import Remodel.Table

/-!
# File trees

Directories and files as a value, with a working directory from which relative paths
are followed.

## Strategy

`FileLocation` is a node together with the way to it: following a step upwards goes back on
that way, and replacing a node puts it into its parents one after another.
-/

namespace Remodel

/-- A file, or a directory with its entries by ascending name. -/
inductive FileNode
  | file (content : Codec.Bytes)
  | directory (entries : List (String × FileNode))
  deriving Repr, Inhabited

namespace FileNode

/-- Whether the node is a directory. -/
def isDirectory : FileNode → Bool
  | directory _ => true
  | file _ => false

/-- The entries of a directory; a file has none. -/
def entries : FileNode → List (String × FileNode)
  | directory entries => entries
  | file _ => []

end FileNode

/-- A node and the way to it: the names and the directories above, innermost first. -/
structure FileLocation where
  node : FileNode
  above : List (String × FileNode)
  deriving Inhabited

namespace FileLocation

/-- The location one step up; the root is above itself. -/
def up (location : FileLocation) : FileLocation :=
  match location.above with
  | (_, parent) :: above => ⟨parent, above⟩
  | [] => location

/-- Follows the names of a path. -/
def follow (location : FileLocation) : List String → Except FileFault FileLocation
  | [] => .ok location
  | name :: rest =>
    match location.node with
    | .file _ => .error .notADirectory
    | .directory entries =>
      if Path.staysInPlace name then location.follow rest
      else if name = ".." then location.up.follow rest
      else
        match entries.lookup name with
        | some child => follow ⟨child, (name, location.node) :: location.above⟩ rest
        | none => .error .notFound

/-- The root after a node has been put at the end of a way. -/
def replaceAlong (node : FileNode) : List (String × FileNode) → FileNode
  | [] => node
  | (name, parent) :: above =>
    replaceAlong (.directory (Table.insert name node parent.entries)) above

/-- The root after a node has been put at a location. -/
def replace (location : FileLocation) (node : FileNode) : FileNode :=
  replaceAlong node location.above

end FileLocation

/-- All files, and the names on the way from the root to the working directory. -/
structure FileTree where
  root : FileNode
  working : List String
  deriving Inhabited

namespace FileTree

/-- A tree with nothing but the working directory. -/
def inDirectory (working : List String) : FileTree :=
  ⟨working.foldr (fun name node => .directory [(name, node)]) (.directory []), working⟩

/-- The path of the working directory. -/
def workingPath (tree : FileTree) : String := "/" ++ Text.join "/" tree.working

/-- The names that lead from the root to what a path names. -/
def namesFrom (tree : FileTree) (path : String) : List String :=
  if Path.isAbsolute path then Path.names path else tree.working ++ Path.names path

/-- The location that a path names; the empty path names none. -/
def find (tree : FileTree) (path : String) : Except FileFault FileLocation :=
  if path.isEmpty then .error .notFound
  else FileLocation.follow ⟨tree.root, []⟩ (tree.namesFrom path)

/-- The content of a file. -/
def readBytes (tree : FileTree) (path : String) : Except FileFault Codec.Bytes := do
  match (← tree.find path).node with
  | .file content => return content
  | .directory _ => throw .isADirectory

/-- The text that bytes encode. -/
def textOf (content : Codec.Bytes) : Except FileFault String :=
  match String.fromUTF8? ⟨content.toArray⟩ with
  | some text => .ok text
  | none => .error .invalidData

/-- The text in a file. -/
def readText (tree : FileTree) (path : String) : Except FileFault String := do
  textOf (← tree.readBytes path)

/-- Whether a path names a directory. -/
def isDirectory (tree : FileTree) (path : String) : Bool :=
  match tree.find path with
  | .ok location => location.node.isDirectory
  | .error _ => false

/-- Whether a path names a file. -/
def isFile (tree : FileTree) (path : String) : Bool :=
  match tree.find path with
  | .ok location => !location.node.isDirectory
  | .error _ => false

/-- Writes a file into an existing directory, replacing a file of the same name. -/
def write (tree : FileTree) (path : String) (content : Codec.Bytes) :
    Except FileFault FileTree := do
  if path.isEmpty then throw .notFound
  let names := tree.namesFrom path
  let parent ← FileLocation.follow ⟨tree.root, []⟩ names.dropLast
  let name := names.getLast?.getD ""
  if !parent.node.isDirectory then throw .notADirectory
  if Path.staysInPlace name || name = ".." then throw .isADirectory
  if ((parent.node.entries.lookup name).map FileNode.isDirectory).getD false then
    throw .isADirectory
  let directory := FileNode.directory (Table.insert name (.file content) parent.node.entries)
  return { tree with root := parent.replace directory }

/-- A node with another one put below it, with all directories on the way. -/
def putBelow (node below : FileNode) : List String → FileNode
  | [] => below
  | name :: rest =>
    let child := (node.entries.lookup name).getD (.directory [])
    .directory (Table.insert name (putBelow child below rest) node.entries)

/-- The tree with a node at a path, making the directories on the way; a directory that is
there already stays. -/
def put (tree : FileTree) (path : String) (node : FileNode) : FileTree :=
  let names := Path.resolved (tree.namesFrom path)
  if node.isDirectory && tree.isDirectory path then tree
  else { tree with root := putBelow tree.root node names }

end FileTree

end Remodel
