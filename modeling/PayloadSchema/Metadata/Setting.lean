import PayloadSchema.Metadata.Reader
import PayloadSchema.Metadata.Casing
import PayloadSchema.Json.Draft

/-!
# Settings of fields and containers

Three namespaces of attributes are known: `serde` for the spelling on the wire, `validate` for
constraints, and `schema` for both. An item that is not known is passed over together with its value, so
that it does not hide the items after it. Documentation is kept line by line.

* `Setting.ofMeta` — what an attribute says of a field or variant;
* `ContainerSetting.ofMeta` — what it says of a structure or enumeration.
-/

namespace PayloadSchema.Metadata

open Source Reader

/-! ## Fields -/

/-- What one item says of a field. -/
inductive Setting where
  | rename (name : String)
  | ignore
  | omitEmpty
  | flatten
  | required
  | format (name : String)
  | pattern (text : String)
  | minimum (bound : Binary64)
  | maximum (bound : Binary64)
  | minLength (bound : Nat)
  | maxLength (bound : Nat)
  | oneOf (values : List String)
  | description (text : String)
  | sample (value : Json.Value)
  /-- A line of documentation. -/
  | documentation (line : String)

/-- The parts of a list that is written with commas or blanks. -/
def splitList (text : String) : List String :=
  (parts text.toList).filter (· ≠ "")
where
  /-- The parts between separators, empty ones included. -/
  parts : List Char → List String
    | [] => [""]
    | c :: rest =>
      match parts rest with
      | part :: more =>
        if c = ',' ∨ Text.isBlank c then "" :: part :: more
        else String.ofList (c :: part.toList) :: more
      | [] => []

/-- The value of an example: a text that may be JSON, a truth value, or a number. -/
def sampleOf? : Expr → Option Json.Value
  | .literal (.string s) => some ((Json.Value.ofText? s).getD (.string s))
  | .literal (.bool b) => some (.bool b)
  | e => do
    let x ← numberOf? e
    if x.isFinite then some (.ofReal x) else none

variable (g : Grammar)

/-- An example after an equals sign. -/
def sample : Reader Setting Json.Value := do
  match sampleOf? (← expression g) with
  | some v => return v
  | none => failure

/-- Items about the spelling on the wire. -/
def serdeItem (path : MetaPath) : Reader Setting Unit := do
  if path.is "rename" then
    match ← name g with
    | some n => yield (.rename n)
    | none => return ()
  else if path.is "skip" then yield .ignore
  else if path.is "skip_serializing_if" || path.is "default" then
    yield .omitEmpty
    skipValue g
  else if path.is "skip_serializing" || path.is "skip_deserializing" then yield .omitEmpty
  else if path.is "flatten" then yield .flatten
  else skipValue g

def lengthItem (path : MetaPath) : Reader Setting Unit := do
  if path.is "min" then yield (.minLength (← length g))
  else if path.is "max" then yield (.maxLength (← length g))
  else if path.is "equal" then
    let n ← length g
    yield (.minLength n)
    yield (.maxLength n)
  else skipValue g

def rangeItem (path : MetaPath) : Reader Setting Unit := do
  if path.is "min" then yield (.minimum (← number g))
  else if path.is "max" then yield (.maximum (← number g))
  else skipValue g

/-- Items about constraints. A pattern that is not written out cannot be read from here. -/
def validateItem (path : MetaPath) : Reader Setting Unit := do
  if path.is "required" then yield .required
  else if path.is "email" then
    yield (.format "email")
    skipValue g
  else if path.is "url" then
    yield (.format "uri")
    skipValue g
  else if path.is "length" then inParentheses (lengthItem g)
  else if path.is "range" then inParentheses (rangeItem g)
  else if path.is "regex" || path.is "pattern" then
    if ← valued then yield (.pattern (← text)) else skipValue g
  else if path.is "one_of" then yield (.oneOf (splitList (← text)))
  else skipValue g

/-- Items about everything that a schema shows. -/
def schemaItem (path : MetaPath) : Reader Setting Unit := do
  if path.is "rename" then yield (.rename (← text))
  else if path.is "ignore" || path.is "skip" then yield .ignore
  else if path.is "required" then yield .required
  else if path.is "optional" then yield .omitEmpty
  else if path.is "format" then yield (.format (← text))
  else if path.is "pattern" then yield (.pattern (← text))
  else if path.is "description" then yield (.description (← text))
  else if path.is "example" then yield (.sample (← sample g))
  else if path.is "one_of" then yield (.oneOf (splitList (← text)))
  else if path.is "min_length" then yield (.minLength (← length g))
  else if path.is "max_length" then yield (.maxLength (← length g))
  else if path.is "minimum" then yield (.minimum (← number g))
  else if path.is "maximum" then yield (.maximum (← number g))
  else skipValue g

/-- The line of documentation that an attribute holds. -/
def documentation? : Meta → Option String
  | .value path (.literal (.string s)) => if path.is "doc" then some (Text.trim s) else none
  | _ => none

/-- What an attribute says of a field, in order. -/
def Setting.ofMeta (m : Meta) : List Setting :=
  match m with
  | .list path tokens =>
    let g := Grammar.forTokens tokens
    if path.is "serde" then (run (serdeItem g) tokens).1
    else if path.is "validate" then (run (validateItem g) tokens).1
    else if path.is "schema" then (run (schemaItem g) tokens).1
    else []
  | m => ((documentation? m).map Setting.documentation).toList

/-! ## Containers -/

/-- What one item says of a container. -/
inductive ContainerSetting where
  /-- The rule for names, if the one named is known. -/
  | casing (rule : Option Casing)
  | documentation (line : String)

/-- Items about the spelling of the names in a container. -/
def containerItem (path : MetaPath) : Reader ContainerSetting Unit := do
  if path.is "rename_all" then
    match ← name g with
    | some rule => yield (.casing (Casing.ofName? rule))
    | none => return ()
  else skipValue g

/-- What an attribute says of a container, in order. -/
def ContainerSetting.ofMeta (m : Meta) : List ContainerSetting :=
  match m with
  | .list path tokens =>
    if path.is "serde" then (run (containerItem (Grammar.forTokens tokens)) tokens).1 else []
  | m => ((documentation? m).map ContainerSetting.documentation).toList

/-- Lines of documentation as one text; empty lines do not count. -/
def joinLines (lines : List String) : Option String :=
  match lines.filter (· ≠ "") with
  | [] => none
  | lines => some (" ".intercalate lines)

end PayloadSchema.Metadata
