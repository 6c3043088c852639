import Remodel.Text.Parts

/-!
# Paths

Texts that name files: names with slashes between them.  A path that begins with a
slash is absolute.
-/

namespace Remodel.Path

/-- The names of a path; empty ones stand beside every slash that has no name there. -/
def names (path : String) : List String := Text.parts "/" path

/-- Whether a path begins at the root. -/
def isAbsolute (path : String) : Bool := ['/'].isPrefixOf path.toList

/-- A path below another one; an absolute path stands by itself. -/
def join (base path : String) : String :=
  if isAbsolute path || base.isEmpty then path
  else if base.toList.getLast? = some '/' then base ++ path
  else base ++ "/" ++ path

/-- Whether a name in a path leads nowhere. -/
def staysInPlace (name : String) : Bool := name = "" || name = "."

/-- The paths of the directories that lead to what a path names, outermost first. -/
def ancestors (path : String) : List String :=
  let names := names path
  ((List.range names.length).map fun n => Text.join "/" (names.take n)).filter (· ≠ "")

/-- The names that remain when every step upwards has taken back the name before it. -/
def resolved (names : List String) : List String :=
  let step := fun (above : List String) (name : String) =>
    if staysInPlace name then above
    else if name = ".." then above.tail
    else name :: above
  (names.foldl step []).reverse

/-- What is left of a path below a directory, without names at its ends that lead nowhere. -/
def below? (directory path : String) : Option String :=
  let start := (directory ++ "/").toList
  if start.isPrefixOf path.toList then
    let rest := (names (String.ofList (path.toList.drop start.length))).dropWhile staysInPlace
    some (Text.join "/" (rest.reverse.dropWhile staysInPlace).reverse)
  else none

/-- The last name of a path; a path that ends in a step upwards has none. -/
def fileName? (path : String) : Option String :=
  match ((names path).filter (!staysInPlace ·)).getLast? with
  | some name => if name = ".." then none else some name
  | none => none

/-- What stands behind the last dot of a name, unless the name begins with that dot. -/
def extensionOf? (name : List Char) : Option (List Char) :=
  let last := name.reverse.takeWhile (· ≠ '.')
  if last.length + 1 < name.length then some last.reverse else none

/-- The extension of a path's last name. -/
def extension? (path : String) : Option String := do
  let name ← fileName? path
  return String.ofList (← extensionOf? name.toList)

end Remodel.Path
