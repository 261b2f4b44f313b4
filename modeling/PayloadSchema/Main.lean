import PayloadSchema.Command.Generation

/-!
# The command line

Reads the files that the arguments name, generates, and writes the schema files. The outcome is the exit
code: zero if all files are written, two if the arguments are not understood, and one otherwise.
-/

namespace PayloadSchema.CommandLine

/-- How the command is called. -/
def usage : String := "\n".intercalate
  ["Compile the payload types of handlers into schema files", "",
   "Usage: handler-schema [OPTIONS] --output <DIR> <PROJECT_PATH>", "",
   "  -H, --handler <NAME=FILE:REQUEST:RESPONSE>  Handler to compile (types may be empty)",
   "  -m, --manifest <FILE>                       JSON or YAML file listing handlers",
   "  -o, --output <DIR>                          Directory of the schema files",
   "  -f, --format <OUTPUT_FORMAT>                json (default) or yaml",
   "      --max-depth <MAX_DEPTH>                 Maximum nesting depth (default 10)",
   "  -v, --verbose                               Say what is written",
   "  -h, --help                                  Print help",
   "  -V, --version                               Print version"]

/-- The version of the command. -/
def version : String := "handler-schema 0.1.0"

/-- The text of what is wrong with arguments. -/
def complaint : ArgumentError → String
  | .helpAsked => usage
  | .versionAsked => version
  | .unknown argument => "unexpected argument '" ++ argument ++ "' found"
  | .noValue slot => "a value is required for '" ++ slot.label ++ "' but none was supplied"
  | .noSuchChoice slot value => "invalid value '" ++ value ++ "' for '" ++ slot.label ++ "'"
  | .badValue slot value reason =>
    "invalid value '" ++ value ++ "' for '" ++ slot.label ++ "': " ++ reason
  | .repeated (.option slot) => "the argument '" ++ slot.label ++ "' cannot be used multiple times"
  | .repeated (.flag flag) => "the argument '" ++ flag.label ++ "' cannot be used multiple times"
  | .needlessValue flag value => "unexpected value '" ++ value ++ "' for '" ++ flag.label ++ "' found"
  | .required slot => "the following required argument was not provided: " ++ slot.label

/-! ## Reading -/

/-- The text of names from the root on. -/
def textOf (names : List String) : String := "/" ++ "/".intercalate names

/-- The names on the way from the root to a path; a step up goes back by name. -/
def namesOf (files : Files) (path : FilePath) : List String :=
  path.parts.foldl (fun names part =>
    match part with
    | .root => []
    | .current => names
    | .parent => names.dropLast
    | .name text => names ++ [text]) files.start

def readFile (names : List String) : IO FileContent := do
  return { text := String.fromUTF8? (← IO.FS.readBinFile (textOf names)) }

/-- The directory or file of some names, in which only source files are read. -/
partial def readTree (names : List String) : IO FileTree := do
  let path := (← IO.currentDir) / textOf names
  if ← path.isDir then
    let mut entries : Dictionary FileTree := []
    for entry in ← path.readDir do
      entries := entries.insert entry.fileName (← readTree (names ++ [entry.fileName]))
    return .directory entries
  else if path.extension == some "rs" then return .file (← readFile names)
  else return .file { text := none }

/-- The files with the directories on the way to names, and the directory or file there. -/
def lookAt (files : Files) (names : List String) : IO Files := do
  let mut known := files
  for length in [1 : names.length + 1] do
    let front := names.take length
    let here := (← IO.currentDir) / textOf front
    if ← here.isDir then
      known := (known.makeDirectories? ⟨textOf front⟩).getD known
    else if ← here.pathExists then
      let some root := FileTree.put? (.file (← readFile front)) front known.root | return known
      return { known with root }
    else return known
  return known

/-- The files with all that a path goes through. -/
def look (files : Files) (path : FilePath) : IO Files := do
  let mut known := files
  for length in [1 : path.parts.length + 1] do
    known ← lookAt known (namesOf files (.ofParts (path.parts.take length)))
  return known

/-- The files with all below a path. -/
def explore (files : Files) (path : FilePath) : IO Files := do
  let files ← look files path
  if files.isDirectory path then
    let names := namesOf files path
    let some root := FileTree.put? (← readTree names) names files.root | return files
    return { files with root }
  else return files

/-- The path that the schema file of a handler is written to. -/
def outputOf (a : Arguments) (entry : HandlerEntry) : FilePath :=
  a.output.below (SchemaFile.fileName entry.name a.format)

/-- The files that arguments name. -/
def gather (a : Arguments) : IO (Files × List HandlerEntry) := do
  let start := FilePath.names (FilePath.parts ⟨(← IO.currentDir).toString⟩)
  let empty : Files := { root := (FileTree.put? (.directory []) start (.directory [])).getD default, start }
  let mut files ← explore empty a.project
  if let some path := a.manifest then files ← look files path
  let entries := (a.allHandlers files).toOption.getD []
  for entry in entries do
    files ← look files (a.project.join entry.file)
    files ← look files (outputOf a entry)
  return (files, entries)

/-! ## Writing -/

/-- Writes the files that are not as they were. -/
def writeChanges (a : Arguments) (before after : Files) (entries : List HandlerEntry) : IO Unit := do
  for entry in entries do
    let path := outputOf a entry
    let some text := after.text? path | continue
    if before.text? path ≠ some text then
      if let some parent := path.parent? then
        if parent.text ≠ "" then IO.FS.createDirAll parent.text
      IO.FS.writeFile path.text text
      if a.verbose then IO.eprintln (entry.name ++ " -> " ++ path.text)

/-- Generates as arguments say. -/
def run (a : Arguments) : IO UInt32 := do
  let (files, entries) ← gather a
  let (outcome, after) := a.generate files
  writeChanges a files after entries
  match outcome with
  | .ok () => return 0
  | .error e =>
    IO.eprintln ("Error: " ++ e.message)
    return 1

end PayloadSchema.CommandLine

/-- Generates schema files. -/
def main (arguments : List String) : IO UInt32 := do
  match PayloadSchema.Arguments.ofList arguments with
  | .ok a => PayloadSchema.CommandLine.run a
  | .error e =>
    let text := PayloadSchema.CommandLine.complaint e
    if e = .helpAsked ∨ e = .versionAsked then
      IO.println text
      return 0
    else
      IO.eprintln ("error: " ++ text)
      return 2
