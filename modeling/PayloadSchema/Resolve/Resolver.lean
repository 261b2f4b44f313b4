import PayloadSchema.Resolve.Build
import PayloadSchema.Modules.Locator
import PayloadSchema.Compile.Basic

/-!
# Resolvers

A resolver answers questions about a workspace from what it remembers, and else from the files. It
remembers every answer at once, also that a file could not be read as source; that there is no such file is
not remembered. What it remembers may be out of date when files change, until it is cleared.

* `Files.view` — the answers that the files of a workspace give;
* `Resolver.answer` — the outcome of a search, and the resolver afterwards.
-/

namespace PayloadSchema

/-- The answers that the files of a workspace at a root give. -/
def Files.view (files : Files) (root : FilePath) : View where
  locate modulePath := (Locator.locate { root } files modulePath).1
  scope := FileScope.ofFile files root
  source := Source.ofFile files

/-- A resolver with what it remembers. -/
structure Resolver where
  locator : Locator
  /-- The scopes of files, or that a file could not be read, latest first. What a path names is decided by
  its parts, so that two texts of one path have one entry. -/
  scopes : List (List FilePath.Part × Option FileScope) := []

namespace Resolver

/-- A resolver for a workspace at a root, which remembers nothing. -/
def ofRoot (root : FilePath) : Resolver := { locator := { root } }

def root (r : Resolver) : FilePath := r.locator.root

/-- What is to be remembered of the scope of a file: it, or that the file could not be read. -/
def memory? : Except Failure FileScope → Option (Option FileScope)
  | .ok scope => some (some scope)
  | .error (.parseFailure ..) => some none
  | .error _ => none

variable (files : Files)

/-- The files of a module, and the resolver afterwards. -/
def locate (r : Resolver) (modulePath : String) : List FilePath × Resolver :=
  let (found, locator) := r.locator.locate files modulePath
  (found, { r with locator })

/-- The scope of a file, or why there is none, and the resolver afterwards. -/
def scope (r : Resolver) (file : FilePath) : Except Failure FileScope × Resolver :=
  match r.scopes.lookup file.parts with
  | some (some scope) => (.ok scope, r)
  | some none => (.error (.parseFailure file "file could not be parsed"), r)
  | none =>
    let found := FileScope.ofFile files r.root file
    match memory? found with
    | some memory => (found, { r with scopes := (file.parts, memory) :: r.scopes })
    | none => (found, r)

/-- The outcome of a search, and the resolver afterwards. -/
def answer {α : Type} : Asking α → Resolver → α × Resolver
  | .done a, r => (a, r)
  | .locate modulePath next, r => answer (next (r.locate files modulePath).1) (r.locate files modulePath).2
  | .scope file next, r => answer (next (r.scope files file).1) (r.scope files file).2
  | .read file next, r => answer (next (Source.ofFile files file)) r

/-- The resolver after references were loaded, the last one of the list first. -/
def follow (r : Resolver) (loads : List Instantiation) : Resolver :=
  loads.foldr (fun i r => (answer files i.load r).2) r

/-- How a resolver loads references. -/
def environment (r : Resolver) : Environment Instantiation := ⟨fun i => (answer files i.load r).1⟩

/-- The resolver with nothing remembered. -/
def clear (r : Resolver) : Resolver := { r with locator := r.locator.clear, scopes := [] }

/-- The schema of a descriptor of the resolver's workspace: the schema, the cache and the context
afterwards, and the resolver. -/
def compile (r : Resolver) (policy : RequiredPolicy) (maxDepth : Nat) (d : Descriptor SourceType)
    (cache : SchemaCache) : (Schema × Session Instantiation) × Resolver :=
  let session : Session Instantiation := { cache, context := { maxDepth } }
  let result := PayloadSchema.compile (r.environment files) policy d session
  (result, r.follow files result.2.loads)

end Resolver

end PayloadSchema
