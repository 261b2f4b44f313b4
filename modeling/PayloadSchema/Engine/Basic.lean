import PayloadSchema.Engine.Settings
import PayloadSchema.Files.Search
import PayloadSchema.Handlers.Entry
import PayloadSchema.Live.Basic
import PayloadSchema.Resolve.Resolver
import PayloadSchema.Stored.Store

/-!
# The engine

An engine answers what the schema of a payload of a handler is. It asks three stages in a fixed order and
takes the first schema that there is: the live type of the payload, the stored schema of the handler, and
the type as written in the sources. If none has a schema, a placeholder stands for it.

An engine remembers what its resolver remembers, and whether there were sources when it first looked. The
cache of compiled schemas may be shared by several engines, so it is handed from call to call.

* `Engine.start` — an engine from settings;
* `Engine.resolve` — the schema of a payload, with the stage that it comes from;
* `Engine.resolveSource` — the schema of a type expression in a source file.
-/

namespace PayloadSchema

/-! ## Handlers -/

/-- What is known of a handler. -/
structure Handler where
  name : String
  request : Option LiveHandle := none
  response : Option LiveHandle := none
  source : Option SourcePlace := none

/-- The payloads of a handler. -/
inductive Payload where
  | request
  | response
deriving DecidableEq, Repr

namespace Payload

def live? (handler : Handler) : Payload → Option LiveHandle
  | request => handler.request
  | response => handler.response

/-- The type expression of a payload. -/
def expression? (place : SourcePlace) : Payload → Option String
  | request => place.request
  | response => place.response

/-- The stored schema of a payload. -/
def stored? (store : SchemaStore) (handlerName : String) : Payload → Option Schema
  | request => store.request? handlerName
  | response => store.response? handlerName

end Payload

/-- The stage that a schema comes from. -/
inductive Stage where
  | reflection
  | stored
  | static
  | fallback
deriving DecidableEq, Repr

/-- A schema and where it comes from. -/
structure Resolution where
  schema : Schema
  stage : Stage

/-! ## Engines -/

/-- What an engine runs in: the files, and how declared live types describe themselves. -/
structure Surroundings where
  files : Files
  declarations : String → LiveDeclaration := fun _ => .record [] []

/-- An engine. -/
structure Engine where
  settings : Settings
  store : SchemaStore
  resolver : Resolver
  /-- Whether there were any sources, once that was looked for. -/
  sourcesFound : Option Bool := none

namespace Engine

/-- An engine from settings, or why they cannot work. -/
def start (settings : Settings) (files : Files) : Except Failure Engine := do
  if let some failure := settings.problem? files then throw failure
  let store ← match settings.schemaDirectory with
    | some directory => SchemaStore.ofDirectory files directory
    | none => pure {}
  return { settings, store, resolver := .ofRoot settings.root }

/-- The engine with nothing remembered of files but whether there are any. -/
def clear (e : Engine) : Engine := { e with resolver := e.resolver.clear }

/-- The schema that the live type of a payload has, if any. -/
def liveSchema? (e : Engine) (around : Surroundings) (handle : LiveHandle) (cache : SchemaCache) :
    Option (Schema × SchemaCache) :=
  let descriptor := handle.descriptor around.declarations
  if descriptor.isResolvable then
    let session : Session LiveType := { cache, context := { maxDepth := e.settings.maxDepth } }
    let (schema, session) :=
      compile (LiveType.environment around.declarations) e.settings.policy descriptor session
    some (schema, session.cache)
  else none

/-- Whether sources may be analysed: they are looked for once. -/
def staticAvailable (e : Engine) (files : Files) : Bool × Engine :=
  if e.settings.isStaticEnabled then
    let found := e.sourcesFound.getD (files.hasSources e.settings.root)
    (found, { e with sourcesFound := some found })
  else (false, e)

/-- The schema of a type expression as it would be understood in a source file, or why there is none. The
file is looked for from the root of the workspace on. -/
def resolveSource (e : Engine) (files : Files) (file : FilePath) (expression : String)
    (cache : SchemaCache) : Except Failure Schema × Engine × SchemaCache :=
  let (found, resolver) :=
    Resolver.answer files (resolveExpression (e.settings.root.join file) expression) e.resolver
  match found with
  | .error failure => (.error failure, { e with resolver }, cache)
  | .ok descriptor =>
    let ((schema, session), resolver) :=
      resolver.compile files e.settings.policy e.settings.maxDepth descriptor cache
    (.ok schema, { e with resolver }, session.cache)

/-- The schema of a payload as written in the sources, if sources may be analysed. -/
def sourceSchema (e : Engine) (files : Files) (file : FilePath) (expression : String)
    (cache : SchemaCache) : Option Schema × Engine × SchemaCache :=
  match e.staticAvailable files with
  | (false, e) => (none, e, cache)
  | (true, e) =>
    let (schema, e, cache) := e.resolveSource files file expression cache
    (schema.toOption, e, cache)

/-- The schema of a payload with its stage, and the engine and the cache afterwards. -/
def resolve (e : Engine) (around : Surroundings) (handler : Handler) (payload : Payload)
    (cache : SchemaCache) : Resolution × Engine × SchemaCache :=
  match (payload.live? handler).bind fun handle => e.liveSchema? around handle cache with
  | some (schema, cache) => (⟨schema, .reflection⟩, e, cache)
  | none =>
    match payload.stored? e.store handler.name with
    | some schema => (⟨schema, .stored⟩, e, cache)
    | none =>
      let place := do
        let place ← handler.source
        return (place.file, ← payload.expression? place)
      match place with
      | none => (⟨.unavailable, .fallback⟩, e, cache)
      | some (file, expression) =>
        let (schema, e, cache) := e.sourceSchema around.files file expression cache
        match schema with
        | some schema => (⟨schema, .static⟩, e, cache)
        | none => (⟨.unavailable, .fallback⟩, e, cache)

end Engine

end PayloadSchema
