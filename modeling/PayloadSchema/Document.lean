import PayloadSchema.Json.Value

/-!
# Documents

A typed value is read from a *document*: a JSON text or a YAML text taken apart. `Document` lists what
reading a typed value asks of a part of one, so that one reader serves every format.

* `Document.record?` — a record from an object: no known member may repeat, unknown ones are passed over;
* `Document.tuple?` — a record from a list of its parts in order.
-/

namespace PayloadSchema

/-- What a reader of typed values asks of the parts of a document. -/
structure Document (τ : Type) where
  /-- How deep lists and objects may be nested, the outermost counted. -/
  nesting : Nat
  /-- Whether the part says that there is no value, unless it says so in a wrong way. -/
  absent? : τ → Option Bool
  text? : τ → Option String
  /-- An unsigned integer of at most 64 bits. -/
  natural? : τ → Option Nat
  real? : τ → Option Binary64
  /-- The name of one of several alternatives without content, at a depth. -/
  choice? : Nat → τ → Option String
  /-- Any value, nested at most so deep. -/
  value? : Nat → τ → Option Json.Value
  elements? : τ → Option (List τ)
  /-- The members in order; a name is absent if it is not a text. -/
  members? : τ → Option (List (Option String × τ))

namespace Document

/-- The depth left inside one more array or object. -/
def descend? : Nat → Option Nat
  | 0 => none
  | depth + 1 => some depth

variable {τ α : Type}

def optional? (doc : Document τ) (read : τ → Option α) (t : τ) : Option (Option α) := do
  if ← doc.absent? t then return none else return some (← read t)

/-- A list, inside which one level less is left. -/
def list? (doc : Document τ) (depth : Nat) (read : Nat → τ → Option α) (t : τ) : Option (List α) := do
  let depth ← descend? depth
  (← doc.elements? t).mapM (read depth)

/-- A record given as an object: each known member is put into the record once, in the order of the
text, and the others are passed over. -/
def record? (known : List String) (put : String → τ → α → Option α) (start : α)
    (members : List (Option String × τ)) : Option α :=
  go [] start members
where
  /-- The members after those in `seen`. -/
  go (seen : List String) (record : α) : List (Option String × τ) → Option α
    | [] => some record
    | (none, _) :: _ => none
    | (some name, t) :: rest =>
      if name ∈ known then
        if name ∈ seen then none
        else do go (name :: seen) (← put name t record) rest
      else go seen record rest

/-- A record given as a list of its parts in order, all of them or, from `least` on, fewer. -/
def tuple? (known : List String) (least : Nat) (put : String → τ → α → Option α) (start : α)
    (elements : List τ) : Option α :=
  if elements.length < least ∨ known.length < elements.length then none
  else (known.zip elements).foldlM (fun record (name, t) => put name t record) start

end Document

end PayloadSchema
