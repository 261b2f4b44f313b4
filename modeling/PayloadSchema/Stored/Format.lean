import PayloadSchema.Files.Path
import PayloadSchema.Json.Draft
import PayloadSchema.Json.Writer
import PayloadSchema.Yaml.Document
import PayloadSchema.Yaml.Writer

/-!
# Formats of data files

Data is kept in JSON or in YAML. A format takes a text apart and writes a value; a path may say by its
extension which format its file has.
-/

namespace PayloadSchema

/-- A format. -/
inductive Format where
  | json
  | yaml
deriving DecidableEq, Repr

namespace Format

/-- The extension of the files that are written. -/
def extension : Format → String
  | json => "json"
  | yaml => "yaml"

def name : Format → String
  | json => "JSON"
  | yaml => "YAML"

/-- The format that the extension of a path says. -/
def ofPath? (path : FilePath) : Option Format :=
  match path.extension? with
  | some "json" => some json
  | some "yaml" => some yaml
  | some "yml" => some yaml
  | _ => none

/-- A typed value read from a text, by a reader for the parts of any document. -/
def read? {α : Type} (format : Format) (reader : {τ : Type} → Document τ → τ → Option α)
    (text : String) : Option α :=
  match format with
  | json => (Json.Draft.ofText? text).bind (reader Json.document)
  | yaml => (Yaml.Node.ofText? text).bind (reader Yaml.document)

def render (format : Format) (v : Json.Value) : String :=
  match format with
  | json => v.render
  | yaml => Yaml.render v

end Format

end PayloadSchema
