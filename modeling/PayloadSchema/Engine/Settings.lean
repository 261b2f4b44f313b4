import PayloadSchema.Metadata.Basic
import PayloadSchema.Compile.Context
import PayloadSchema.Files.Tree
import PayloadSchema.Failure
import PayloadSchema.Text.Blank

/-!
# Settings of an engine

Where the sources are, which stages may answer, and how schemas are compiled. Settings can be taken from
variables of the environment; some settings cannot work and are refused before anything is compiled.

* `Settings.ofEnvironment` — settings from variables;
* `Settings.problem?` — why settings cannot work.
-/

namespace PayloadSchema

/-- The settings of an engine. -/
structure Settings where
  /-- The root of the workspace. -/
  root : FilePath := ⟨"."⟩
  /-- Whether sources may be analysed. -/
  analysesSources : Bool := true
  /-- Whether this is a production system, where sources are never analysed. -/
  production : Bool := false
  /-- The directory of stored schemas. -/
  schemaDirectory : Option FilePath := none
  /-- Whether there has to be such a directory. -/
  requiresStored : Bool := false
  maxDepth : Nat := defaultMaxDepth
  policy : RequiredPolicy := .tagged
deriving Inhabited

namespace Settings

/-- Whether sources may be analysed in this system. -/
def isStaticEnabled (s : Settings) : Bool := s.analysesSources && !s.production

/-- Why the settings cannot work, if so. -/
def problem? (s : Settings) (files : Files) : Option Failure :=
  if s.maxDepth = 0 then some (.invalidConfig "max depth must be at least 1")
  else
    match s.schemaDirectory with
    | some directory =>
      if files.isDirectory directory then none
      else
        some (.invalidConfig
          ("schema directory " ++ directory.text ++ " does not exist or is not a directory"))
    | none =>
      if s.requiresStored then
        some (.invalidConfig "stored schemas are required but no schema directory is configured")
      else none

/-! ## Variables -/

def rootVariable : String := "HANDLER_SCHEMA_ROOT"

/-- The variable that may switch the analysis of sources off. -/
def staticVariable : String := "HANDLER_SCHEMA_STATIC"

/-- The variables for the kind of system; the first that is set counts. -/
def systemVariables : List String := ["HANDLER_SCHEMA_ENV", "APP_ENV"]

/-- The variable for the directory of stored schemas. -/
def directoryVariable : String := "HANDLER_SCHEMA_DIR"

/-- A word without blanks around it and without regard to the case of ASCII letters. -/
def wordOf (text : String) : String := (Text.trim text).map Char.toLower

/-- The words that switch something off. -/
def offWords : List String := ["0", "false", "off", "no"]

/-- The words for a production system. -/
def productionWords : List String := ["production", "prod"]

/-- The settings that variables give. -/
def ofEnvironment (value? : String → Option String) : Settings :=
  { root := ((value? rootVariable).map FilePath.mk).getD ⟨"."⟩
    analysesSources := (value? staticVariable).all fun text => !offWords.contains (wordOf text)
    production := (systemVariables.findSome? value?).any fun text =>
      productionWords.contains (wordOf text)
    schemaDirectory := ((value? directoryVariable).filter fun text => Text.trim text ≠ "").map
      FilePath.mk }

end Settings

end PayloadSchema
