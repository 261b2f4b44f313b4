import PayloadSchema.Stored.Format
import PayloadSchema.Schema.Encode
import PayloadSchema.Schema.Decode

/-!
# Schema files

A schema file keeps the schemas of one handler, of which either may be missing. Files of another version
than the present one are refused.

* `SchemaFile.render`, `SchemaFile.ofText` — writing and reading a file;
* `SchemaFile.fileName` — the name that a file is kept under.
-/

namespace PayloadSchema

def schemaFileVersion : Nat := 1

/-- The schemas of a handler. -/
structure SchemaFile where
  version : Nat := schemaFileVersion
  handlerName : String
  request : Option Schema := none
  response : Option Schema := none
deriving Inhabited

/-- Why a text is no schema file. -/
inductive SchemaFileError where
  | malformed (format : Format)
  | version (found : Nat)
deriving DecidableEq, Repr

def SchemaFileError.message : SchemaFileError → String
  | malformed format => "Failed to parse " ++ format.name ++ " schema file"
  | version found =>
    "Unsupported schema file version " ++ toString found ++ " (expected " ++ toString schemaFileVersion
      ++ ")"

namespace SchemaFile

/-- The value that stands for a file. -/
def toValue (f : SchemaFile) : Json.Value :=
  .object ([("version", .ofInt f.version), ("handlerName", .string f.handlerName)]
    ++ Schema.member "requestSchema" Schema.toValue f.request
    ++ Schema.member "responseSchema" Schema.toValue f.response)

def render (f : SchemaFile) (format : Format) : String := format.render f.toValue

/-! ## Reading -/

/-- The parts of a file as far as they are read. -/
structure Parts where
  version : Option Nat := none
  handlerName : Option String := none
  request : Option Schema := none
  response : Option Schema := none

/-- The names of the parts, in the order of a list of them. -/
def partNames : List String := ["version", "handlerName", "requestSchema", "responseSchema"]

variable {τ : Type} (doc : Document τ)

/-- The parts with one more, with so many levels left for it. -/
def putPart (depth : Nat) (name : String) (t : τ) (p : Parts) : Option Parts :=
  match name with
  | "version" => do return { p with version := some (← (doc.natural? t).filter (· < twoPow 32)) }
  | "handlerName" => do return { p with handlerName := some (← doc.text? t) }
  | "requestSchema" => do return { p with request := ← doc.optional? (Schema.decode? doc depth) t }
  | "responseSchema" => do return { p with response := ← doc.optional? (Schema.decode? doc depth) t }
  | _ => none

/-- A file read from a document; a version and a name have to be there. -/
def decode? (t : τ) : Option SchemaFile := do
  let depth ← Document.descend? doc.nesting
  let put := putPart doc depth
  let parts ←
    match doc.members? t with
    | some members => Document.record? partNames put {} members
    | none => do Document.tuple? partNames 2 put {} (← doc.elements? t)
  return { version := ← parts.version, handlerName := ← parts.handlerName
           request := parts.request, response := parts.response }

/-- The file that a text holds, or why it holds none. -/
def ofText (format : Format) (text : String) : Except SchemaFileError SchemaFile :=
  match format.read? (fun doc => decode? doc) text with
  | none => .error (.malformed format)
  | some file => if file.version = schemaFileVersion then .ok file else .error (.version file.version)

/-- Equality of files, with doubles compared as numbers. -/
def same (a b : SchemaFile) : Bool :=
  a.version == b.version && a.handlerName == b.handlerName && Schema.sameChild a.request b.request
    && Schema.sameChild a.response b.response

/-! ## Names of files -/

/-- The characters that stay as they are in the name of a file. -/
def isPlainInName (c : Char) : Bool := c.isAlphanum || c == '-' || c == '_' || c == '.'

/-- The name that the file of a handler is kept under; other characters become underscores. -/
def fileName (handlerName : String) (format : Format) : String :=
  (handlerName.map fun c => if isPlainInName c then c else '_') ++ "." ++ format.extension

end SchemaFile

end PayloadSchema
