import PayloadSchema.Files.Search
import PayloadSchema.Modules.Path
import PayloadSchema.Text.Match

/-!
# Locating modules

The files of a module are looked for in three tiers, and the first that finds any counts: the paths that
the module path itself gives, the directories that such modules conventionally lie in, and a search near
a few roots, in which a file counts only if the module around it declares it.

A locator remembers what it found, also that it found nothing (`Locator.locate`).
-/

namespace PayloadSchema

namespace Locating

open Text Matcher

/-! ## Declarations in text -/

/-- The declaration of a module at the start of a line. -/
def moduleDeclaration (name : String) : Matcher :=
  all [blanks, optional visibility, text "mod", gap, optional (text "r#"), text name, blanks,
    one fun c => c == ';' || c == '\x7b']
where
  /-- A visibility with the gap after it. -/
  visibility : Matcher :=
    all [text "pub",
      optional (all [blanks, text "(", many (· != ')'), text ")"]), gap]

/-- Whether the file at a path declares a module, as far as its lines show. -/
def declaresModule (files : Files) (file : FilePath) (name : String) : Bool :=
  match files.text? file with
  | some content => anyLine (moduleDeclaration name) content
  | none => false

/-- The name that a line of a package description gives. -/
def nameLine? (line : List Char) : Option String :=
  ((all [blanks, text "name", blanks, text "=", blanks, text "\""]) line).findSome? fun rest =>
    let name := rest.takeWhile (· ≠ '\"')
    if name ≠ [] ∧ rest.contains '\"' then some (String.ofList name) else none

/-- A package name with underscores for hyphens. -/
def normalized (name : String) : String := name.map fun c => if c = '-' then '_' else c

/-- Whether the package in a directory has a given name. -/
def isPackage (files : Files) (directory : FilePath) (name : String) : Bool :=
  match files.text? (directory.below "Cargo.toml") with
  | some content =>
    match (lineStarts content.toList).findSome? nameLine? with
    | some found => normalized found == normalized name
    | none => false
  | none => false

/-- Whether the module whose files lie in a directory declares another one. -/
def directoryDeclares (files : Files) (directory : FilePath) (name : String) : Bool :=
  let inside := ["mod.rs", "lib.rs", "main.rs"].map directory.below
  let beside := match directory.parent?, directory.name? with
    | some parent, some own => [parent.below (own ++ ".rs")]
    | _, _ => []
  (inside ++ beside).any fun file => declaresModule files file name

/-! ## The tiers -/

/-- The files of a module given by its path below a directory; without a path, the files of a library. -/
def moduleFiles (files : Files) (base : FilePath) (names : List String) : List FilePath :=
  let candidates :=
    match names with
    | [] => [base.below "lib.rs", base.below "main.rs"]
    | _ =>
      let joined := names.foldl FilePath.below ⟨""⟩
      [base.join (joined.withExtension "rs"), base.join (joined.below "mod.rs")]
  candidates.filter files.isFile

/-- The directories that a module path itself gives, each with the rest of the path below it. -/
def exactBases (root : FilePath) (segments : List String) : List (FilePath × List String) :=
  match segments with
  | [] => []
  | first :: rest =>
    if first = ModulePath.ownLibrary then [(root.below "src", rest)]
    else
      let dashed := first.map fun c => if c = '_' then '-' else c
      ([first, dashed].flatMap fun name =>
        [(((root.below "crates").below name).below "src", rest), ((root.below name).below "src", rest)])
        ++ [(root.below "src", segments), (root, segments)]

/-- The first tier. -/
def exact (files : Files) (root : FilePath) (segments : List String) : List FilePath :=
  (exactBases root segments).flatMap fun (base, names) => moduleFiles files base names

/-- The directories of the second tier. -/
def conventionalDirectories : List String :=
  ["src/handlers", "handlers", "src/api/handlers", "src/http/handlers", "api/handlers", "src/api",
   "src/models", "src/dto"]

/-- The second tier: the last name in each conventional directory. -/
def conventional (files : Files) (root : FilePath) (last : String) : List FilePath :=
  conventionalDirectories.flatMap fun directory => moduleFiles files (root.below directory) [last]

def searchRoots : List String := ["src", "crates", "internal", "lib", "app"]

/-- What a directory of the right name holds: a module that is declared around it, or a package. -/
def ofDirectory (files : Files) (last : String) (directory : FilePath) : List FilePath :=
  let module := directory.below "mod.rs"
  let library := (directory.below "src").below "lib.rs"
  (if files.isFile module && directory.parent?.any (directoryDeclares files · last) then [module]
    else [])
    ++ (if files.isFile library && isPackage files directory last then [library] else [])

/-- The third tier: a search for the last name. -/
def searched (files : Files) (root : FilePath) (last : String) : List FilePath :=
  ((searchRoots.map root.below).filter files.isDirectory).flatMap fun start =>
    (files.directoriesNamed start last).flatMap (ofDirectory files last)
      ++ (files.filesNamed start (last ++ ".rs")).filter fun file =>
        file.parent?.any (directoryDeclares files · last)

/-- A list of paths with each path once, at its first place. -/
def distinct (paths : List FilePath) : List FilePath :=
  paths.foldl (fun kept p => if kept.any p.same then kept else kept ++ [p]) []

/-- The files of a module, from the first tier that finds any. -/
def locate (files : Files) (root : FilePath) (module : String) : List FilePath :=
  let segments := (Segments.split module).filter (· ≠ "")
  let tier₁ := exact files root segments
  if tier₁ ≠ [] then distinct tier₁
  else
    match segments.getLast? with
    | none => []
    | some last =>
      let tier₂ := conventional files root last
      distinct (if tier₂ ≠ [] then tier₂ else searched files root last)

end Locating

/-- A locator with what it remembers, by module path. -/
structure Locator where
  root : FilePath
  located : Dictionary (List FilePath) := []

namespace Locator

/-- The files of a module, and the locator afterwards. The standard libraries have none. -/
def locate (l : Locator) (files : Files) (module : String) : List FilePath × Locator :=
  if ModulePath.isExternal module then ([], l)
  else
    match l.located.find? module with
    | some found => (found, l)
    | none =>
      let found := Locating.locate files l.root module
      (found, { l with located := l.located.insert module found })

/-- The locator with nothing remembered. -/
def clear (l : Locator) : Locator := { l with located := [] }

end Locator

end PayloadSchema
