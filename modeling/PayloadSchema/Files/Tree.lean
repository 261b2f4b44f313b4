import PayloadSchema.Files.Path
import PayloadSchema.Dictionary
import PayloadSchema.Source.Reading

/-!
# File trees

The files that a program sees: directories with named entries, files with text, and the directory that
relative paths start from. A file that is no text has no text here. What a file reads as is found when it is
asked for, and once.

* `Files.find` — what is at a path, or why nothing is;
* `Files.write`, `Files.makeDirectories`, `Files.remove` — the tree after a change, if it can be made.
-/

namespace PayloadSchema

/-- What is in a file: its text, if it is text, and the source file that it reads as. -/
structure FileContent where
  text : Option String
  source : Thunk (Option Source.SourceFile) := Thunk.mk fun _ => text.bind Source.SourceFile.ofText?
  source_eq : source.get = text.bind Source.SourceFile.ofText? := by rfl

instance : Inhabited FileContent := ⟨{ text := none }⟩

/-- A file or a directory; the entries are in ascending order of their names. -/
inductive FileTree where
  | file (content : FileContent)
  | directory (entries : List (String × FileTree))
deriving Inhabited

namespace FileTree

def entries : FileTree → Dictionary FileTree
  | file _ => []
  | directory entries => entries

def isFile : FileTree → Bool
  | file _ => true
  | directory _ => false

def isDirectory (t : FileTree) : Bool := !t.isFile

/-- The tree at a place, given by names. -/
def get? : FileTree → List String → Option FileTree
  | t, [] => some t
  | t, name :: names => (Dictionary.find? t.entries name).bind fun inner => inner.get? names

/-- The tree with another one at a place, given by names; directories on the way are made. It fails where
a file is on the way. -/
def put? (value : FileTree) : List String → FileTree → Option FileTree
  | [], _ => some value
  | _ :: _, file _ => none
  | name :: names, directory entries =>
    let inner := (Dictionary.find? entries name).getD (.directory [])
    (put? value names inner).map fun inner => .directory (Dictionary.insert entries name inner)

/-- The tree without what is at a place. -/
def erase : List String → FileTree → FileTree
  | [], t => t
  | _ :: _, file content => file content
  | [name], directory entries => .directory (Dictionary.erase entries name)
  | name :: names, directory entries =>
    match Dictionary.find? entries name with
    | some inner => .directory (Dictionary.insert entries name (erase names inner))
    | none => .directory entries

end FileTree

/-- Why there is nothing at a path. -/
inductive PathError where
  | missing
  /-- A file stands where a directory would have to be. -/
  | notDirectory
deriving DecidableEq, Repr

def PathError.message : PathError → String
  | missing => "No such file or directory (os error 2)"
  | notDirectory => "Not a directory (os error 20)"

/-- All files, and the directory that relative paths start from. -/
structure Files where
  root : FileTree
  start : List String

namespace Files

/-- A place in the tree: the directories on the way with their names, the innermost first, and what is
there. -/
structure Place where
  above : List (String × FileTree)
  here : FileTree

/-- The names from the root to a place. -/
def Place.names (p : Place) : List String := (p.above.map (·.1)).reverse

/-- The place a name below another. -/
def Place.child (p : Place) (name : String) : Except PathError Place :=
  match p.here with
  | .file _ => .error .notDirectory
  | .directory entries =>
    match Dictionary.find? entries name with
    | some inner => .ok ⟨(name, p.here) :: p.above, inner⟩
    | none => .error .missing

/-- The place one above another; above the root is the root. -/
def Place.up (p : Place) : Except PathError Place :=
  match p.here, p.above with
  | .file _, _ => .error .notDirectory
  | _, [] => .ok p
  | _, (_, outer) :: above => .ok ⟨above, outer⟩

/-- The place after one more part of a path. -/
def Place.step (files : Files) (p : Place) : FilePath.Part → Except PathError Place
  | .root => .ok ⟨[], files.root⟩
  | .current => .ok p
  | .parent => p.up
  | .name text => p.child text

/-- The place that relative paths start from. -/
def startPlace (files : Files) : Except PathError Place :=
  files.start.foldlM (fun p name => p.child name) ⟨[], files.root⟩

/-- The place of a path. -/
def place (files : Files) (path : FilePath) : Except PathError Place := do
  if path.text = "" then throw .missing
  let p ← path.parts.foldlM (fun p part => p.step files part) (← files.startPlace)
  if path.saysDirectory && p.here.isFile then throw .notDirectory
  return p

/-- What is at a path, or why nothing is. -/
def find (files : Files) (path : FilePath) : Except PathError FileTree := (·.here) <$> files.place path

/-- Whether there is a file at a path. -/
def isFile (files : Files) (path : FilePath) : Bool :=
  match files.find path with
  | .ok t => t.isFile
  | .error _ => false

/-- Whether there is a directory at a path. -/
def isDirectory (files : Files) (path : FilePath) : Bool :=
  match files.find path with
  | .ok t => t.isDirectory
  | .error _ => false

/-- Whether there is anything at a path. -/
def isThere (files : Files) (path : FilePath) : Bool :=
  match files.find path with
  | .ok _ => true
  | .error _ => false

/-- What is in the file at a path. -/
def content? (files : Files) (path : FilePath) : Option FileContent :=
  match files.find path with
  | .ok (.file content) => some content
  | _ => none

/-- The text of the file at a path. -/
def text? (files : Files) (path : FilePath) : Option String := (files.content? path).bind (·.text)

/-- The entries of the directory at a path, or why there are none. -/
def list (files : Files) (path : FilePath) : Except PathError (List (String × FileTree)) := do
  match ← files.find path with
  | .directory entries => return entries
  | .file _ => throw .notDirectory

/-! ## Changes -/

/-- The longest name, in bytes. -/
def longestName : Nat := 255

/-- Whether a name may be given to a file. -/
def isValidName (name : String) : Bool :=
  name.utf8ByteSize ≤ longestName && !name.toList.contains '\x00'

/-- The names from the root and the tree after one more part of a path, with a directory there. -/
def makeDirectory? : List String × FileTree → FilePath.Part → Option (List String × FileTree)
  | (_, t), .root => some ([], t)
  | (names, t), .current => some (names, t)
  | (names, t), .parent => some (names.dropLast, t)
  | (names, t), .name text =>
    let here := names ++ [text]
    match t.get? here with
    | some (.directory _) => some (here, t)
    | some (.file _) => none
    | none => if isValidName text then (FileTree.put? (.directory []) here t).map (here, ·) else none

/-- The files with a directory at a path and at each of the paths on the way to it. -/
def makeDirectories? (files : Files) (path : FilePath) : Option Files := do
  let start ← files.startPlace.toOption
  let (_, root) ← path.parts.foldlM makeDirectory? (start.names, files.root)
  return { files with root }

/-- The files with a file at a path, in a directory that is there. -/
def write? (files : Files) (path : FilePath) (content : FileContent) : Option Files := do
  let name ← path.name?
  if path.saysDirectory || !isValidName name then none
  let parent ← path.parent?
  let place ← (if parent.text = "" then files.startPlace else files.place parent).toOption
  match place.here with
  | .file _ => none
  | .directory entries =>
    match Dictionary.find? entries name with
    | some (.directory _) => none
    | _ => return { files with root := ← FileTree.put? (.file content) (place.names ++ [name]) files.root }

/-- The files without what is at a path. -/
def remove (files : Files) (path : FilePath) : Files :=
  match files.place path with
  | .ok place => { files with root := files.root.erase place.names }
  | .error _ => files

end Files

end PayloadSchema
