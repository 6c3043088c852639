import Remodel.CommandLine.Needs
import Remodel.CommandLine.Outcome
import Remodel.Record.DrawnId

/-!
# The program

Brings the files that a request needs into a tree, performs the request, writes the file
that it writes, and prints what it prints.
-/

namespace Remodel.CommandLine

/-- Adds the directories that lead to what a path names. -/
def addAncestors (files : FileTree) (path : String) : IO FileTree := do
  let here ← IO.currentDir
  (Path.ancestors path).foldlM (fun (files : FileTree) (ancestor : String) => do
    if ← (here / ancestor).isDir then return files.put ancestor (.directory [])
    return files) files

/-- The file or the directory that a path names; only files that are wanted are read. -/
partial def readNode (isWanted : String → Bool) (path : String) : IO FileNode := do
  let place := (← IO.currentDir) / path
  if ← place.isDir then
    let mut entries := []
    for entry in ← place.readDir do
      let below := Path.join path entry.fileName
      let found ← entry.path.symlinkMetadata
      if found.type == .dir || found.type == .file then
        entries := Table.insert entry.fileName (← readNode isWanted below) entries
    return .directory entries
  else if isWanted path then return .file (← IO.FS.readBinFile place).toList
  else return .file []

/-- Adds what a path names; what cannot be read is left out. -/
def addPath (isWanted : String → Bool) (files : FileTree) (path : String) : IO FileTree := do
  let files ← addAncestors files path
  try return files.put path (← readNode isWanted path) catch _ => return files

/-- Adds a file; a directory of that name is added without what is in it. -/
def addFile (files : FileTree) (path : String) : IO FileTree := do
  if ← ((← IO.currentDir) / path).isDir then
    return (← addAncestors files path).put path (.directory [])
  addPath (fun _ => true) files path

/-- The variables of the environment. -/
def environment : IO (List (String × String)) := do
  try
    let content := (← IO.FS.readBinFile "/proc/self/environ").toList
    let text := (FileTree.textOf content).toOption.getD ""
    return (Text.parts "\x00" text).map fun entry =>
      let name := String.ofList (entry.toList.takeWhile (· ≠ '='))
      (name, String.ofList (entry.toList.drop (name.length + 1)))
  catch _ => return []

/-- The directory with the user's settings. -/
def settingsHome : IO (Option String) := do
  let home ← IO.getEnv "HOME"
  match ← IO.getEnv "XDG_CONFIG_HOME" with
  | some path => if Path.isAbsolute path then return some path
  | none => pure ()
  return home.map fun path => Path.join path ".config"

/-- Everything that the program meets, with the files that a request needs. -/
def surroundings (request : Request) : IO Surroundings := do
  let home ← settingsHome
  let environment ← environment
  let seed := (← IO.getRandomBytes 16).toList
  let working := Path.names (← IO.currentDir).toString
  let start := FileTree.inDirectory (working.filter (· ≠ ""))
  let files ← match request with
    | .invoke invocation => do
      let files ← (invocation.settingsPaths home).foldlM addFile start
      match Config.load files home invocation.config environment with
      | .error _ => pure files
      | .ok config =>
        let isWanted := fun path =>
          Path.extension? path = some config.extension ||
            (invocation.definitionPaths config files.workingPath).contains path
        let files ← (invocation.inputPaths config).foldlM addFile files
        let files ← (invocation.definitionPaths config files.workingPath).foldlM
          (addPath isWanted) files
        invocation.outputPath?.toList.foldlM addAncestors files
    | _ => pure start
  return ⟨files, home, environment, drawnId seed⟩

/-- Writes the file that a request has written. -/
def writeBack (request : Request) (outcome : Outcome) : IO Unit := do
  let .invoke invocation := request | return
  let some path := invocation.outputPath? | return
  if outcome.code = 0 then
    match outcome.console.files.readBytes path with
    | .ok content => IO.FS.writeBinFile path ⟨content.toArray⟩
    | .error _ => return

end Remodel.CommandLine

/-- Runs the program with the arguments of the command line. -/
def main (arguments : List String) : IO UInt32 := do
  let request := Remodel.CommandLine.Request.ofArguments arguments
  let outcome := request.outcome (← Remodel.CommandLine.surroundings request)
  Remodel.CommandLine.writeBack request outcome
  IO.print outcome.console.output
  IO.eprint outcome.console.errors
  return UInt32.ofNat outcome.code
