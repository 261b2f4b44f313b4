import PayloadSchema.Files.Tree

/-!
# Searching for sources

A search looks at what lies a few levels below a root. Hidden entries and build output are passed over
together with everything below them; the root itself is not.

* `Files.directoriesNamed`, `Files.filesNamed` — what has a given name near a root;
* `Files.hasSources` — whether there is any source file near a root.
-/

namespace PayloadSchema.Files

/-- How deep a search goes below its root. -/
def searchDepth : Nat := 3

/-- How deep the search for any source file goes below its root. -/
def probeDepth : Nat := searchDepth + 1

/-- Whether an entry is passed over. -/
def isSkipped (name : String) : Bool := name.startsWith "." || name == "target"

/-- Something found, with its path and its name. -/
structure Found where
  path : FilePath
  name : String
  tree : FileTree

/-- What lies at most so deep below a path. -/
def below : Nat → FilePath → FileTree → List Found
  | 0, _, _ => []
  | depth + 1, path, t =>
    (t.entries.filter fun entry => !isSkipped entry.1).flatMap fun (name, inner) =>
      ⟨path.below name, name, inner⟩ :: below depth (path.below name) inner

/-- The root of a search, if it is there. -/
def searchRoot? (files : Files) (root : FilePath) : Option Found :=
  match files.find root with
  | .ok t => some ⟨root, root.name?.getD root.text, t⟩
  | .error _ => none

/-- The root of a search and what lies at most so deep below it. -/
def near (files : Files) (root : FilePath) (depth : Nat) : List Found :=
  match files.searchRoot? root with
  | some found => found :: below depth root found.tree
  | none => []

/-- The directories of a name near a root, the root left out. -/
def directoriesNamed (files : Files) (root : FilePath) (name : String) : List FilePath :=
  (((files.near root searchDepth).drop 1).filter fun f =>
    f.tree.isDirectory && f.name == name).map (·.path)

/-- The files of a name near a root. -/
def filesNamed (files : Files) (root : FilePath) (name : String) : List FilePath :=
  ((files.near root searchDepth).filter fun f => f.tree.isFile && f.name == name).map (·.path)

/-- Whether there is a source file near a root. -/
def hasSources (files : Files) (root : FilePath) : Bool :=
  (files.near root probeDepth).any fun f => f.tree.isFile && f.path.extension? == some "rs"

end PayloadSchema.Files
