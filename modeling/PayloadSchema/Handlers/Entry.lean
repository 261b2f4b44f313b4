import PayloadSchema.Files.Path

/-!
# Entries of handlers

An entry names a handler and says where the types of its payloads are written: a source file and, for each
payload that there is, a type expression as it would be understood in that file.
-/

namespace PayloadSchema

/-- Where the types of the payloads of a handler are written. -/
structure SourcePlace where
  /-- The file, from the root of the workspace on. -/
  file : FilePath
  request : Option String := none
  response : Option String := none
deriving DecidableEq, Repr

/-- A handler and where its types are written. -/
structure HandlerEntry extends SourcePlace where
  name : String
deriving DecidableEq, Repr

end PayloadSchema
