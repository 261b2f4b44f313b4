import PayloadSchema.Stored.File
import PayloadSchema.Files.Saving
import PayloadSchema.Failure

/-!
# Stores of schemas

A store holds schema files by the name of their handler, one for each. It is filled from a directory: the
regular files in it are read in the order of their names, those that are no schema files are passed over, and
of two for one handler the later counts.

* `SchemaStore.ofDirectory` — the store of a directory;
* `SchemaFile.save` — a file written into a directory.
-/

namespace PayloadSchema

/-- Schema files by handler. -/
structure SchemaStore where
  files : Dictionary SchemaFile := []
deriving Inhabited

namespace SchemaStore

/-- The store with a file in the place of any other for its handler. -/
def insert (store : SchemaStore) (file : SchemaFile) : SchemaStore :=
  { files := store.files.insert file.handlerName file }

def get? (store : SchemaStore) (handlerName : String) : Option SchemaFile :=
  store.files.find? handlerName

/-- How many files the store holds. -/
def size (store : SchemaStore) : Nat := store.files.length

/-- Whether the store holds nothing. -/
def isEmpty (store : SchemaStore) : Bool := store.files.isEmpty

/-- The request schema of a handler. -/
def request? (store : SchemaStore) (handlerName : String) : Option Schema :=
  (store.get? handlerName).bind (·.request)

/-- The response schema of a handler. -/
def response? (store : SchemaStore) (handlerName : String) : Option Schema :=
  (store.get? handlerName).bind (·.response)

/-- The schema file in an entry of a directory, if it is one. -/
def fileIn? (directory : FilePath) (entry : String × FileTree) : Option SchemaFile :=
  match entry.2, Format.ofPath? (directory.below entry.1) with
  | .file content, some format =>
    (content.text.map (SchemaFile.ofText format)).bind (·.toOption)
  | _, _ => none

/-- The store of the entries of a directory, which are read in the order of their names. -/
def ofEntries (directory : FilePath) (entries : List (String × FileTree)) : SchemaStore :=
  ((Dictionary.ofList entries).filterMap (fileIn? directory)).foldl insert {}

/-- The store of a directory, or why it cannot be read. -/
def ofDirectory (files : Files) (directory : FilePath) : Except Failure SchemaStore :=
  match files.list directory with
  | .ok entries => .ok (ofEntries directory entries)
  | .error e =>
    .error (.invalidConfig ("cannot read schema directory " ++ directory.text ++ ": " ++ e.message))

end SchemaStore

/-- The files with a schema file written into a directory, and its path. -/
def SchemaFile.save (file : SchemaFile) (files : Files) (directory : FilePath) (format : Format) :
    Except SavingError (FilePath × Files) := do
  let path := directory.below (fileName file.handlerName format)
  return (path, ← files.save path (file.render format))

end PayloadSchema
