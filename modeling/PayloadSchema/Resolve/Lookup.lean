import PayloadSchema.Resolve.Asking

/-!
# Finding declarations

A path leads to the declaration of a data type: in a file of its module, or, where that file only imports
the name, at the end of a chain of imports. A chain has a bounded number of links, so circles do no harm.

* `Declaration.atPath` — the declaration behind a canonical path;
* `FileScope.lookup` — the declaration that a path as written in a file means.
-/

namespace PayloadSchema

/-- Where a data type is declared. -/
structure Declaration where
  file : FilePath
  modulePath : String
  name : String
deriving DecidableEq, Repr

/-- How many imports may be followed from a path to its declaration. -/
def importHops : Nat := 4

namespace FileScope

/-- A declaration in the file of a scope. -/
def declaration (scope : FileScope) (name : String) : Declaration :=
  { file := scope.path, modulePath := scope.modulePath, name }

/-- The paths that a file's imports give for a name: that of an import by name, unless it is where we come
from, and one for each module of which all names are imported. -/
def importedPaths (scope : FileScope) (path name : String) : List String :=
  (match scope.imports.find? name with
    | some target => if target = path then [] else [target]
    | none => [])
    ++ scope.imports.globs.map fun glob => glob ++ "::" ++ name

end FileScope

namespace Declaration

/-- The declaration behind a canonical path with so many paths of a chain left, the path itself
included. -/
def within : Nat → String → Asking (Option Declaration)
  | 0, _ => pure none
  | links + 1, path =>
    match Segments.cutLast? path with
    | none => pure none
    | some (modulePath, name) =>
      if ModulePath.isExternal modulePath then pure none
      else do
        let scopes ← Asking.scopesOf modulePath
        match scopes.find? (·.declares name) with
        | some scope => return some (scope.declaration name)
        | none => Asking.first (within links) (scopes.flatMap (·.importedPaths path name))

/-- The declaration behind a canonical path. -/
def atPath (path : String) : Asking (Option Declaration) := within (importHops + 1) path

end Declaration

namespace FileScope

variable (scope : FileScope)

/-- The declaration of a name in one of the modules of which a file imports all names. -/
def lookupInGlobs (name : String) : Asking (Option Declaration) :=
  Asking.first (fun glob => Declaration.atPath (glob ++ "::" ++ name)) scope.imports.globs

/-- The declaration that a path as written in a file means. -/
def lookup : List String → Asking (Option Declaration)
  | [] => pure none
  | [name] =>
    if scope.declares name then pure (some (scope.declaration name))
    else
      match scope.imports.find? name with
      | some target => Declaration.atPath target
      | none => scope.lookupInGlobs name
  | first :: rest =>
    match scope.imports.find? first with
    | some target => Declaration.atPath (target ++ "::" ++ Segments.join rest)
    | none =>
      match ModulePath.canonicalize? (first :: rest) scope.modulePath scope.children with
      | some path => Declaration.atPath path
      | none => pure none

end FileScope

end PayloadSchema
