import PayloadSchema.Files.Path
import PayloadSchema.Text.Segments

/-!
# Module paths

A module is known by its library and the names on the way to it: `crate::models` in the library under
analysis, `billing::invoice` in another one of the workspace.

* `ModulePath.canonicalize?` — a path as it is meant inside a module;
* `ModulePath.ofFile` — the module that a file holds;
* `ModulePath.isExternal` — whether a path leads into the standard libraries.
-/

namespace PayloadSchema.ModulePath

/-- The name of the library under analysis. -/
def ownLibrary : String := "crate"

/-- The libraries whose sources are not looked for. -/
def standardLibraries : List String := ["std", "core", "alloc"]

/-- A path as it is meant inside a module: `crate`, `self` and leading `super`s are relative to the
module, the name of a child module is below it, and anything else stays as it is. There is nothing above
a library. -/
def canonicalize? (segments : List String) (module : String) (children : List String) : Option String :=
  let base := Segments.split module
  match segments with
  | [] => none
  | "crate" :: rest => some (Segments.join (base.take 1 ++ rest))
  | "self" :: rest => some (Segments.join (base ++ rest))
  | "super" :: _ =>
    let up := (segments.takeWhile (· == "super")).length
    if base.length ≤ up then none
    else some (Segments.join (base.take (base.length - up) ++ segments.drop up))
  | first :: _ =>
    if children.contains first then some (Segments.join (base ++ segments))
    else some (Segments.join segments)

/-- Whether a path leads into the standard libraries. -/
def isExternal (path : String) : Bool := standardLibraries.contains ((Segments.split path).headD "")

/-- The name of the file of a module without its ending. -/
def stem (fileName : String) : String :=
  if fileName.endsWith ".rs" then String.ofList (fileName.toList.dropLast.dropLast.dropLast)
  else fileName

/-- The modules of a path below the source directory: the directories, and the file unless it stands for
its directory. -/
def modulesOf (names : List String) : List String :=
  match names.getLast? with
  | none => []
  | some file =>
    names.dropLast ++ (if ["mod", "lib", "main"].contains (stem file) then [] else [stem file])

/-- The names before and after the last `src` of a path. -/
def cutSource? (names : List String) : Option (List String × List String) :=
  let after := (names.reverse.takeWhile (· ≠ "src")).reverse
  if names.contains "src" then some (names.take (names.length - after.length - 1), after) else none

/-- The module that a file holds, in a workspace at a root. A library is named by the directory around
its sources. -/
def ofFile (root file : FilePath) : String :=
  let names := FilePath.names ((file.relativeTo? root).getD file.parts)
  let (library, inside) :=
    match cutSource? names with
    | none => (ownLibrary, names)
    | some (before, after) =>
      match before.getLast? with
      | none => (ownLibrary, after)
      | some directory => (directory.map fun c => if c = '-' then '_' else c, after)
  Segments.join (library :: modulesOf inside)

end PayloadSchema.ModulePath
