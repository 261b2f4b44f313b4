import PayloadSchema.Compile.Context
import PayloadSchema.Handlers.Argument
import PayloadSchema.Stored.Format

/-!
# Arguments of the command

The command takes the path of a project, options with a value and flags. An option has a long name, and most
have a short one; short names may be joined after one dash. The value of an option is joined to its name or is
the next argument, unless that one looks like an option itself. After two dashes every argument is a path.

The value of an option is looked at when the next option, flag or path comes, so an unknown option is
complained of before a bad value that stands in front of it.

* `Arguments.ofList` — the arguments as the command understands them, or what is wrong with them.
-/

namespace PayloadSchema

/-- What takes a value. -/
inductive Slot where
  | project
  | handler
  | manifest
  | output
  | format
  | maxDepth
deriving DecidableEq, Repr

/-- What takes no value. -/
inductive Flag where
  | verbose
  | help
  | version
deriving DecidableEq, Repr

/-- What a name of an option stands for. -/
inductive Switch where
  | option (slot : Slot)
  | flag (flag : Flag)
deriving DecidableEq, Repr

namespace Switch

def ofLong? : String → Option Switch
  | "handler" => some (option .handler)
  | "manifest" => some (option .manifest)
  | "output" => some (option .output)
  | "format" => some (option .format)
  | "max-depth" => some (option .maxDepth)
  | "verbose" => some (flag .verbose)
  | "help" => some (flag .help)
  | "version" => some (flag .version)
  | _ => none

/-- What a short name stands for. -/
def ofShort? : Char → Option Switch
  | 'H' => some (option .handler)
  | 'm' => some (option .manifest)
  | 'o' => some (option .output)
  | 'f' => some (option .format)
  | 'v' => some (flag .verbose)
  | 'h' => some (flag .help)
  | 'V' => some (flag .version)
  | _ => none

end Switch

/-- How a value is shown in a text. -/
def Slot.label : Slot → String
  | project => "<PROJECT_PATH>"
  | handler => "--handler <NAME=FILE:REQUEST:RESPONSE>"
  | manifest => "--manifest <FILE>"
  | output => "--output <DIR>"
  | format => "--format <OUTPUT_FORMAT>"
  | maxDepth => "--max-depth <MAX_DEPTH>"

/-- How a flag is shown in a text. -/
def Flag.label : Flag → String
  | verbose => "--verbose"
  | help => "--help"
  | version => "--version"

/-- Why arguments are not taken. -/
inductive ArgumentError where
  | helpAsked
  | versionAsked
  | unknown (argument : String)
  /-- A value that is missing, or that is empty where a path has to be. -/
  | noValue (slot : Slot)
  /-- A value that is none of those to choose from. -/
  | noSuchChoice (slot : Slot) (value : String)
  | badValue (slot : Slot) (value reason : String)
  | repeated (what : Switch)
  /-- A flag with a value. -/
  | needlessValue (flag : Flag) (value : String)
  | required (slot : Slot)
deriving DecidableEq, Repr

/-- The arguments as they are understood. -/
structure Arguments where
  project : FilePath
  handlers : List HandlerEntry := []
  manifest : Option FilePath := none
  output : FilePath
  format : Format := .json
  maxDepth : Nat := defaultMaxDepth
  verbose : Bool := false
deriving DecidableEq, Repr

namespace Arguments

/-! ## Values -/

/-- What was given so far. -/
structure Given where
  project : Option FilePath := none
  handlers : List HandlerEntry := []
  manifest : Option FilePath := none
  output : Option FilePath := none
  format : Option Format := none
  maxDepth : Option Nat := none
  verbose : Bool := false

/-- The path that a value stands for. -/
def pathOf (slot : Slot) (value : String) : Except ArgumentError FilePath :=
  if value = "" then .error (.noValue slot) else .ok ⟨value⟩

/-- The format that a value stands for. -/
def formatOf (value : String) : Except ArgumentError Format :=
  match value with
  | "json" => .ok .json
  | "yaml" => .ok .yaml
  | _ => .error (.noSuchChoice .format value)

/-- The largest depth that can be given. -/
def depthBound : Nat := twoPow 64 - 1

def numberOf (digits : List Char) : Nat := digits.foldl (fun n c => 10 * n + (c.toNat - '0'.toNat)) 0

/-- The depth that a value stands for: decimal digits, perhaps after a plus sign. -/
def depthOf (value : String) : Except ArgumentError Nat :=
  let digits :=
    match value.toList with
    | '+' :: rest => rest
    | cs => cs
  if digits ≠ [] ∧ digits.all Char.isDigit then
    if numberOf digits ≤ depthBound then .ok (numberOf digits)
    else .error (.badValue .maxDepth value "number too large")
  else .error (.badValue .maxDepth value "no number")

/-- The entry that a value stands for. -/
def entryOf (value : String) : Except ArgumentError HandlerEntry :=
  match HandlerEntry.ofArgument value with
  | .ok entry => .ok entry
  | .error e => .error (.badValue .handler value e.message)

/-- A value where there is none yet. -/
def once {α : Type} (slot : Slot) (given : Option α) (value : Except ArgumentError α) :
    Except ArgumentError (Option α) :=
  if given.isSome then .error (.repeated (.option slot)) else some <$> value

namespace Given

/-- What is given with one more value. Only handlers may be given more than once. -/
def put (g : Given) (slot : Slot) (value : String) : Except ArgumentError Given :=
  match slot with
  | .project => do return { g with project := ← once slot g.project (pathOf slot value) }
  | .handler => do return { g with handlers := g.handlers ++ [← entryOf value] }
  | .manifest => do return { g with manifest := ← once slot g.manifest (pathOf slot value) }
  | .output => do return { g with output := ← once slot g.output (pathOf slot value) }
  | .format => do return { g with format := ← once slot g.format (formatOf value) }
  | .maxDepth => do return { g with maxDepth := ← once slot g.maxDepth (depthOf value) }

/-- What is given with one more flag. -/
def raise (g : Given) (flag : Flag) : Except ArgumentError Given :=
  match flag with
  | .help => .error .helpAsked
  | .version => .error .versionAsked
  | .verbose =>
    if g.verbose then .error (.repeated (.flag flag)) else .ok { g with verbose := true }

/-- The arguments, once all is given that has to be. -/
def finish (g : Given) : Except ArgumentError Arguments :=
  match g.project, g.output with
  | some project, some output =>
    .ok { project, output, handlers := g.handlers, manifest := g.manifest
          format := g.format.getD .json, maxDepth := g.maxDepth.getD defaultMaxDepth
          verbose := g.verbose }
  | none, _ => .error (.required .project)
  | _, none => .error (.required .output)

end Given

/-! ## Reading -/

/-- How far arguments are read. -/
structure Reading where
  given : Given := {}
  /-- What came last, with its value if it has one. -/
  pending : Option (Slot × Option String) := none
  /-- Whether there was a path. -/
  hasPath : Bool := false
  /-- Whether only paths may follow. -/
  onlyPaths : Bool := false

namespace Reading

/-- The reading with nothing pending. -/
def settle (r : Reading) : Except ArgumentError Reading :=
  match r.pending with
  | none => .ok r
  | some (slot, none) => .error (.noValue slot)
  | some (slot, some value) => do return { r with given := ← r.given.put slot value, pending := none }

def path (r : Reading) (argument : String) : Except ArgumentError Reading :=
  if r.hasPath then .error (.unknown argument)
  else do return { ← r.settle with pending := some (.project, some argument), hasPath := true }

/-- The reading after an option whose value may come. -/
def await (r : Reading) (slot : Slot) : Except ArgumentError Reading := do
  return { ← r.settle with pending := some (slot, none) }

/-- The reading after an option with its value. -/
def attach (r : Reading) (slot : Slot) (value : String) : Except ArgumentError Reading := do
  let r ← r.settle
  return { r with given := ← r.given.put slot value }

def raise (r : Reading) (flag : Flag) : Except ArgumentError Reading := do
  let r ← r.settle
  return { r with given := ← r.given.raise flag }

/-- The reading after an argument with a long name. -/
def long (r : Reading) (argument : String) (name : List Char) (value : Option (List Char)) :
    Except ArgumentError Reading :=
  match Switch.ofLong? (String.ofList name), value with
  | none, _ => .error (.unknown argument)
  | some (.option slot), none => r.await slot
  | some (.option slot), some value => r.attach slot (String.ofList value)
  | some (.flag flag), none => r.raise flag
  | some (.flag flag), some value => .error (.needlessValue flag (String.ofList value))

/-- A joined value without the equals sign that it may start with. -/
def joined : List Char → String
  | '=' :: rest => String.ofList rest
  | cs => String.ofList cs

/-- The reading after joined short names. -/
def short (r : Reading) : List Char → Except ArgumentError Reading
  | [] => .ok r
  | c :: rest =>
    match Switch.ofShort? c with
    | none => .error (.unknown (String.ofList ['-', c]))
    | some (.flag flag) => do (← r.raise flag).short rest
    | some (.option slot) => if rest = [] then r.await slot else r.attach slot (joined rest)

/-- The reading after one more argument. -/
def step (r : Reading) (argument : String) : Except ArgumentError Reading :=
  if r.onlyPaths then r.path argument
  else
    match argument.toList with
    | ['-', '-'] => .ok { r with onlyPaths := true }
    | '-' :: '-' :: cs =>
      let (name, value) := Text.cutAt '=' cs
      r.long argument name value
    | '-' :: c :: cs => r.short (c :: cs)
    | _ =>
      match r.pending with
      | some (slot, none) => .ok { r with pending := some (slot, some argument) }
      | _ => r.path argument

end Reading

/-- The arguments as the command understands them, or what is wrong with them. -/
def ofList (arguments : List String) : Except ArgumentError Arguments := do
  let r ← (← arguments.foldlM Reading.step {}).settle
  r.given.finish

end Arguments

end PayloadSchema
