import PayloadSchema.Source.Reading
import PayloadSchema.Text.Blank

/-!
# Reading settings

The tokens of an attribute are a list of items with commas between them: a path, and what the path asks
for. An item yields settings. Reading stops at the first item that cannot be read, and what was yielded
before it stays (`Reader.settings`).
-/

namespace PayloadSchema.Metadata

open Source

/-- A reader that yields settings on the way; they stay where it fails. -/
abbrev Reader (σ : Type) := OptionT (StateM (Cursor × List σ))

namespace Reader

variable {σ α : Type}

/-- Takes a value off the front of the tokens. -/
def take (p : Parser α) : Reader σ α := fun (c, settings) =>
  match p c with
  | some (a, c) => (some a, c, settings)
  | none => (none, c, settings)

def yield (setting : σ) : Reader σ Unit := modify fun (c, settings) => (c, settings ++ [setting])

/-- The path of an item, in which every word may stand. -/
def itemPath : Parser MetaPath := do
  let leading ← Parser.mark? "::"
  let first ← Parser.anyWord
  let more ← Parser.repeating do
    if ← Parser.mark? "::" then return some (← Parser.anyWord) else return none
  return ⟨leading, first :: more⟩

/-- One or more items to the end of the tokens. The budget is their number. -/
def items (item : MetaPath → Reader σ Unit) : Nat → Reader σ Unit
  | 0 => failure
  | budget + 1 => do
    item (← take itemPath)
    if ← take Parser.atEnd then return ()
    take (Parser.mark ",")
    if ← take Parser.atEnd then return ()
    items item budget

/-- The items in parentheses, at least one. -/
def inParentheses (item : MetaPath → Reader σ Unit) : Reader σ Unit := fun (c, settings) =>
  match c.tokens with
  | .group .parenthesis inner :: rest =>
    let (result, inside, settings) := items item (inner.length + 1) ({ c with tokens := inner }, settings)
    (result, { inside with tokens := rest }, settings)
  | _ => (none, c, settings)

/-- The settings that the items of a list yield, and whether every item could be read. An empty list
has none. -/
def run (item : MetaPath → Reader σ Unit) (tokens : List Token) : List σ × Bool :=
  if tokens.isEmpty then ([], true)
  else
    let (result, _, settings) := items item (tokens.length + 1) ({ tokens }, [])
    (settings, result.isSome)

/-! ## Values -/

variable (g : Grammar)

def valued : Reader σ Bool := take (Parser.sees (Look.mark "="))

/-- The expression after an equals sign. -/
def expression : Reader σ Expr :=
  take do
    Parser.mark "="
    g.expr

/-- The text after an equals sign. -/
def text : Reader σ String :=
  take do
    Parser.mark "="
    Parser.text

/-- Passes over a value, or over a list in parentheses, whatever is in it. -/
def skipValue : Reader σ Unit := do
  if ← valued then
    let _ ← expression g
  else if ← take (Parser.sees (Look.group .parenthesis)) then take (Parser.skipGroup .parenthesis)

/-- The number that an expression stands for: a literal, perhaps negated and in parentheses. A text counts
if it reads as a number. -/
def numberOf? : Expr → Option Binary64
  | .literal (.string s) => Decimal.read? (Text.trim s)
  | .literal l => l.toReal?
  | .negated e => (numberOf? e).map (·.neg)
  | .parenthesized e => numberOf? e
  | _ => none

/-- The number after an equals sign. -/
def number : Reader σ Binary64 := do
  match numberOf? (← expression g) with
  | some x => return x
  | none => failure

/-- A number as a length: its integer part, if it is not below zero. -/
def lengthOf? (x : Binary64) : Option Nat := if x.isBelowZero then none else some x.toWord

/-- The length after an equals sign. -/
def length : Reader σ Nat := do
  match lengthOf? (← number g) with
  | some n => return n
  | none => failure

/-- A name given at once, or once for writing and once for reading, of which that for writing counts. -/
def name : Reader σ (Option String) := do
  if ← valued then return some (← text)
  else
    let given ← sides
    return match given.filter (·.1) with
      | [] => (given.head?).map (·.2)
      | writing => writing.getLast?.map (·.2)
where
  /-- The names in parentheses, each with whether it is for writing. -/
  sides : Reader σ (List (Bool × String)) := fun (c, settings) =>
    match inParentheses side (c, []) with
    | (some (), c, names) => (some names, c, settings)
    | (none, c, _) => (none, c, settings)
  /-- One name. -/
  side (path : MetaPath) : Reader (Bool × String) Unit := do
    if path.is "serialize" then yield (true, ← text)
    else if path.is "deserialize" then yield (false, ← text)
    else skipValue g

end Reader

end PayloadSchema.Metadata
