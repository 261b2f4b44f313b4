/-!
# Paths of files

A path is a text with slashes. What it names is decided by its parts: repeated slashes and inner dots do
not count, so two texts may be one path (`FilePath.same`). Joining and changing the extension work on the
text, which is what is shown.

* `FilePath.parts` — the parts that count;
* `FilePath.join` — a path below another, unless it starts at the root;
* `FilePath.relativeTo?` — the parts of a path below another.
-/

namespace PayloadSchema

/-- A path as it is written. -/
structure FilePath where
  text : String
deriving DecidableEq, Repr, Inhabited

namespace FilePath

/-- A part of a path. -/
inductive Part where
  | root
  /-- A dot at the start. -/
  | current
  | parent
  | name (text : String)
deriving DecidableEq, Repr

/-- A list of characters between slashes. -/
def splitSlashes : List Char → List (List Char)
  | [] => [[]]
  | '/' :: rest => [] :: splitSlashes rest
  | c :: rest =>
    match splitSlashes rest with
    | piece :: more => (c :: piece) :: more
    | [] => [[c]]

/-- The part that a piece between slashes stands for, if it counts. -/
def pieceOf? : List Char → Option Part
  | [] => none
  | ['.'] => none
  | ['.', '.'] => some .parent
  | cs => some (.name (String.ofList cs))

/-- The parts that count. -/
def parts (p : FilePath) : List Part :=
  match splitSlashes p.text.toList with
  | [] => []
  | first :: rest =>
    let start :=
      if first = [] then (if rest = [] then [] else [.root])
      else if first = ['.'] then [.current]
      else (pieceOf? first).toList
    start ++ rest.filterMap pieceOf?

/-- Whether two texts are one path. -/
def same (p q : FilePath) : Bool := p.parts == q.parts

/-- Whether a path starts at the root. -/
def isAbsolute (p : FilePath) : Bool := p.text.startsWith "/"

/-- A path below another; one that starts at the root stays as it is. -/
def join (base p : FilePath) : FilePath :=
  if p.isAbsolute then p
  else if base.text = "" ∨ base.text.endsWith "/" then ⟨base.text ++ p.text⟩
  else ⟨base.text ++ "/" ++ p.text⟩

/-- A path below another, given as a text. -/
def below (base : FilePath) (text : String) : FilePath := base.join ⟨text⟩

def names (parts : List Part) : List String :=
  parts.filterMap fun
    | .name text => some text
    | _ => none

/-- The parts after those of another path, if they start with them. -/
def relativeTo? (p base : FilePath) : Option (List Part) :=
  if base.parts.isPrefixOf p.parts then some (p.parts.drop base.parts.length) else none

/-- The last part, if it is a name. -/
def name? (p : FilePath) : Option String :=
  match p.parts.getLast? with
  | some (.name text) => some text
  | _ => none

def ofParts (parts : List Part) : FilePath :=
  parts.foldl (fun p part =>
    match part with
    | .root => ⟨"/"⟩
    | .current => p.below "."
    | .parent => p.below ".."
    | .name text => p.below text) ⟨""⟩

/-- The path without its last part; the root and the empty path have none. -/
def parent? (p : FilePath) : Option FilePath :=
  match p.parts.getLast? with
  | none => none
  | some .root => none
  | some _ => some (ofParts p.parts.dropLast)

/-- A name before and after its last dot. A dot at the start does not count. -/
def cutExtension (name : List Char) : List Char × Option (List Char) :=
  let after := (name.reverse.takeWhile (· ≠ '.')).reverse
  let before := name.take (name.length - after.length - 1)
  if before = [] ∨ !name.contains '.' then (name, none) else (before, some after)

/-- What is after the last dot of the name. -/
def extension? (p : FilePath) : Option String := do
  let name ← p.name?
  let extension ← (cutExtension name.toList).2
  return String.ofList extension

/-- The reversed text of a path without the slashes, and dots between slashes, at its end. -/
def trimReversed : List Char → List Char
  | '/' :: rest => trimReversed rest
  | '.' :: '/' :: rest => trimReversed rest
  | cs => cs

/-- The path with another extension in the place of its own; a path without a name stays as it is. -/
def withExtension (p : FilePath) (extension : String) : FilePath :=
  match p.name? with
  | none => p
  | some name =>
    let stem := (cutExtension name.toList).1
    let before := ((trimReversed p.text.toList.reverse).drop name.length).reverse
    ⟨String.ofList (before ++ stem) ++ "." ++ extension⟩

/-- Whether the text says that the path is a directory. -/
def saysDirectory (p : FilePath) : Bool := p.text.endsWith "/" || p.text.endsWith "/."

end FilePath

end PayloadSchema
