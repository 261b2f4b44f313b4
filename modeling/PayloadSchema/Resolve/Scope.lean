import PayloadSchema.Files.Tree
import PayloadSchema.Modules.Imports
import PayloadSchema.Failure

/-!
# Scopes of source files

A type is written in some file and means what the file's declarations and imports say. `FileScope` is what
a file says at its surface: functions, implementations, traits and inner modules are not entered, the blocks
in the values of constants are.

* `Source.ofFile` — the source file at a path, or why there is none;
* `FileScope.ofSource` — the scope of a source file.
-/

namespace PayloadSchema

namespace Source

mutual
/-- The item, or the items in the blocks of a constant. -/
def Item.surface : Item → List Item
  | .value inner => surfaceAll inner
  | item => [item]
/-- The surface of several items in order. -/
def surfaceAll : List Item → List Item
  | [] => []
  | item :: items => item.surface ++ surfaceAll items
end

def importsOf (items : List Item) : List UseTree :=
  items.filterMap fun
    | .use tree => some tree
    | _ => none

/-- The names of the modules among items. -/
def modulesOf (items : List Item) : List String :=
  items.filterMap fun
    | .module name => some name
    | _ => none

/-- The source file at a path, or why there is none. -/
def ofFile (files : Files) (path : FilePath) : Except Failure SourceFile :=
  match files.content? path with
  | none => .error (.notFound ("source file " ++ path.text ++ " does not exist"))
  | some content =>
    match content.text, content.source.get with
    | none, _ => .error (.parseFailure path ("Failed to read source file: " ++ path.text))
    | some _, none => .error (.parseFailure path ("Invalid Rust syntax in " ++ path.text))
    | some _, some source => .ok source

end Source

/-- What a source file says at its surface. -/
structure FileScope where
  path : FilePath
  modulePath : String
  imports : Imports
  /-- The names of the declared data types. -/
  declared : List String
  /-- The names of the modules below this one. -/
  children : List String
deriving DecidableEq, Inhabited

namespace FileScope

/-- The scope of a source file at a path, in a workspace at a root. -/
def ofSource (root path : FilePath) (source : Source.SourceFile) : FileScope :=
  let items := Source.surfaceAll source.items
  let modulePath := ModulePath.ofFile root path
  let children := (Source.modulesOf items).eraseDups
  { path, modulePath, children
    imports := (Source.importsOf items).foldl (fun imports tree => imports.add tree modulePath children) {}
    declared := (items.filterMap (·.declared?)).eraseDups }

/-- The scope of the file at a path, or why there is none. -/
def ofFile (files : Files) (root path : FilePath) : Except Failure FileScope :=
  (ofSource root path) <$> Source.ofFile files path

/-- Whether a file declares a data type. -/
def declares (scope : FileScope) (name : String) : Bool := scope.declared.contains name

end FileScope

end PayloadSchema
