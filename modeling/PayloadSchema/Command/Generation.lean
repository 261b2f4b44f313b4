import PayloadSchema.Command.Arguments
import PayloadSchema.Engine.Basic
import PayloadSchema.Handlers.Manifest

/-!
# Generation of schema files

The command writes one schema file for each handler that it is given, by argument or in a manifest. The types
are read from the sources of a project. A payload whose type cannot be resolved is left out of the file, so
that whoever reads the file may look elsewhere. All handlers share one engine and one cache of compiled
schemas; the files written before something fails stay.

* `Arguments.problem?` — why nothing can be generated, as far as the arguments tell;
* `Arguments.generate` — the outcome, and the files afterwards.
-/

namespace PayloadSchema

/-- Why generation failed. -/
inductive GenerationError where
  | noProject (path : FilePath)
  | projectNotDirectory (path : FilePath)
  /-- Neither a handler nor a manifest was given. -/
  | noHandlersGiven
  /-- There is no handler, the manifest included. -/
  | noHandlers
  | manifest (error : ManifestError)
  | engine (failure : Failure)
  | saving (error : SavingError)
deriving DecidableEq, Repr

def GenerationError.message : GenerationError → String
  | noProject path => "Project path does not exist: " ++ path.text
  | projectNotDirectory path => "Project path is not a directory: " ++ path.text
  | noHandlersGiven => "No handlers given: pass --handler or --manifest"
  | noHandlers => "No handlers to compile"
  | manifest error => error.message
  | engine _ => "Failed to initialize schema engine"
  | saving error => error.message

/-! ## One handler after the other -/

/-- What generation works with. -/
structure Workshop where
  engine : Engine
  files : Files
  cache : SchemaCache := []

namespace Workshop

/-- The schema of a payload, if it has a type that can be resolved. -/
def payloadSchema (w : Workshop) (file : FilePath) (expression : Option String) :
    Option Schema × Workshop :=
  match expression with
  | none => (none, w)
  | some expression =>
    let (found, engine, cache) := w.engine.resolveSource w.files file expression w.cache
    (found.toOption, { w with engine, cache })

/-- The schema file of a handler. -/
def schemaFile (w : Workshop) (entry : HandlerEntry) : SchemaFile × Workshop :=
  let (request, w) := w.payloadSchema entry.file entry.request
  let (response, w) := w.payloadSchema entry.file entry.response
  ({ handlerName := entry.name, request, response }, w)

/-- The files with the schema files of handlers written, as far as they can be. -/
def writeAll (output : FilePath) (format : Format) (w : Workshop) :
    List HandlerEntry → Except SavingError Unit × Files
  | [] => (.ok (), w.files)
  | entry :: rest =>
    let (file, w) := w.schemaFile entry
    match file.save w.files output format with
    | .ok (_, files) => writeAll output format { w with files } rest
    | .error e => (.error e, w.files)

end Workshop

/-! ## The command -/

namespace Arguments

/-- Why nothing can be generated, as far as the arguments tell. -/
def problem? (a : Arguments) (files : Files) : Option GenerationError :=
  if !files.isThere a.project then some (.noProject a.project)
  else if !files.isDirectory a.project then some (.projectNotDirectory a.project)
  else if a.handlers.isEmpty && a.manifest.isNone then some .noHandlersGiven
  else none

/-- The handlers given as arguments, and then those of the manifest. -/
def allHandlers (a : Arguments) (files : Files) : Except ManifestError (List HandlerEntry) := do
  match a.manifest with
  | some path => return a.handlers ++ (← Manifest.read files path)
  | none => return a.handlers

/-- The settings of the engine of the command. -/
def settings (a : Arguments) : Settings := { root := a.project, maxDepth := a.maxDepth }

/-- The handlers and the engine of the command, or why there are none. -/
def prepare (a : Arguments) (files : Files) : Except GenerationError (List HandlerEntry × Engine) := do
  if let some problem := a.problem? files then throw problem
  let handlers ← (a.allHandlers files).mapError .manifest
  if handlers.isEmpty then throw .noHandlers
  return (handlers, ← (Engine.start a.settings files).mapError .engine)

/-- The outcome of the command, and the files afterwards. -/
def generate (a : Arguments) (files : Files) : Except GenerationError Unit × Files :=
  match a.prepare files with
  | .error e => (.error e, files)
  | .ok (handlers, engine) =>
    let (outcome, files) := Workshop.writeAll a.output a.format { engine, files } handlers
    (outcome.mapError .saving, files)

end Arguments

end PayloadSchema
