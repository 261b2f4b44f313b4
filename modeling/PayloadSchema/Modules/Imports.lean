import PayloadSchema.Modules.Path
import PayloadSchema.Source.Tree
import PayloadSchema.Dictionary

/-!
# Imports

What the imports of a file bind: names to the canonical paths of what they stand for, and the modules all
of whose names are imported. Of two imports of one name the later counts.

* `UseTree.leaves` — an import tree taken apart;
* `Imports.add` — the imports after one more tree.
-/

namespace PayloadSchema

namespace Source

mutual
/-- The leaves of an import tree below given segments: a name with the path it stands for, or no name for
all names of a module. `self` stands for the path before it, and nothing is bound by `_`. -/
def UseTree.leavesBelow (before : List String) : UseTree → List (Option String × List String)
  | .path name rest => rest.leavesBelow (before ++ [name])
  | .name name =>
    if name = "self" then (before.getLast?.map fun last => (some last, before)).toList
    else [(some name, before ++ [name])]
  | .rename name newName =>
    if newName = "_" then []
    else [(some newName, if name = "self" then before else before ++ [name])]
  | .glob => if before = [] then [] else [(none, before)]
  | .group trees => leavesOfAll before trees
/-- The leaves of several trees in order. -/
def leavesOfAll (before : List String) : List UseTree → List (Option String × List String)
  | [] => []
  | tree :: trees => tree.leavesBelow before ++ leavesOfAll before trees
end

/-- The leaves of an import tree. -/
def UseTree.leaves (tree : UseTree) : List (Option String × List String) := tree.leavesBelow []

end Source

/-- What the imports of one file bind. -/
structure Imports where
  aliases : Dictionary String := []
  /-- The modules of which all names are imported, in order. -/
  globs : List String := []
deriving DecidableEq, Inhabited

namespace Imports

/-- The imports after one more leaf. One whose path is above the library binds nothing. -/
def addLeaf (module : String) (children : List String) (imports : Imports)
    (leaf : Option String × List String) : Imports :=
  match ModulePath.canonicalize? leaf.2 module children, leaf.1 with
  | none, _ => imports
  | some path, some name => { imports with aliases := imports.aliases.insert name path }
  | some path, none => { imports with globs := imports.globs ++ [path] }

/-- The imports after one more tree, inside a module with child modules. -/
def add (imports : Imports) (tree : Source.UseTree) (module : String) (children : List String) :
    Imports :=
  tree.leaves.foldl (addLeaf module children) imports

/-- The path that a name stands for. -/
def find? (imports : Imports) (name : String) : Option String := imports.aliases.find? name

/-- How many names and modules are imported. -/
def size (imports : Imports) : Nat := imports.aliases.length + imports.globs.length

def isEmpty (imports : Imports) : Bool := imports.aliases.isEmpty && imports.globs.isEmpty

end Imports

end PayloadSchema
