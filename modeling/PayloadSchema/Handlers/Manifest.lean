import PayloadSchema.Files.Tree
import PayloadSchema.Handlers.Entry
import PayloadSchema.Stored.Format

/-!
# Manifests

A manifest is a file with a list of entries of handlers. It is YAML if its extension says so, and JSON
otherwise. What stands in it is taken as it is: blanks count, and empty texts are texts.

* `Manifest.ofText?` — the entries in a text;
* `Manifest.read` — the entries in a file, or why there are none.
-/

namespace PayloadSchema

/-- Why a file is no manifest. -/
inductive ManifestError where
  | unreadable (path : FilePath)
  | malformed (format : Format) (path : FilePath)
deriving DecidableEq, Repr

def ManifestError.message : ManifestError → String
  | unreadable path => "Failed to read manifest: " ++ path.text
  | malformed format path => "Failed to parse " ++ format.name ++ " manifest: " ++ path.text

namespace Manifest

/-- The parts of an entry as far as they are read. -/
structure Parts where
  name : Option String := none
  file : Option String := none
  request : Option String := none
  response : Option String := none

/-- The names of the parts, in the order of a list of them. -/
def partNames : List String := ["name", "file", "request", "response"]

variable {τ : Type} (doc : Document τ)

def putPart (part : String) (t : τ) (p : Parts) : Option Parts :=
  match part with
  | "name" => do return { p with name := some (← doc.text? t) }
  | "file" => do return { p with file := some (← doc.text? t) }
  | "request" => do return { p with request := ← doc.optional? doc.text? t }
  | "response" => do return { p with response := ← doc.optional? doc.text? t }
  | _ => none

/-- An entry, with so many levels left for it; a name and a file have to be there. -/
def readOne? (depth : Nat) (t : τ) : Option HandlerEntry := do
  let _ ← Document.descend? depth
  let parts ←
    match doc.members? t with
    | some members => Document.record? partNames (putPart doc) {} members
    | none => do Document.tuple? partNames 2 (putPart doc) {} (← doc.elements? t)
  return { name := ← parts.name, file := ⟨← parts.file⟩
           request := parts.request, response := parts.response }

def decode? (t : τ) : Option (List HandlerEntry) := doc.list? doc.nesting (readOne? doc) t

def ofText? (format : Format) (text : String) : Option (List HandlerEntry) :=
  format.read? (fun doc => decode? doc) text

/-- The format of the manifest at a path. -/
def formatOf (path : FilePath) : Format := (Format.ofPath? path).getD .json

/-- The entries in the manifest at a path, or why there are none. -/
def read (files : Files) (path : FilePath) : Except ManifestError (List HandlerEntry) :=
  match files.text? path with
  | none => .error (.unreadable path)
  | some text =>
    match ofText? (formatOf path) text with
    | none => .error (.malformed (formatOf path) path)
    | some entries => .ok entries

end Manifest

end PayloadSchema
