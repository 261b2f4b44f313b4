import PayloadSchema.Source.Tree

/-!
# Parsing tokens

A parser takes a value off the front of a list of tokens, or fails. Beside the tokens it carries two notes:
the items met in blocks on the way, and whether some group had tokens that nothing took, which is an error
of the whole text but does not stop the reading at that place.

`Look` holds the tests on the tokens ahead. For them a lifetime counts as one token; a punctuation mark of
several characters is as many tokens, all but the last of them joined to the next.
-/

namespace PayloadSchema.Source

/-! ## Looking ahead -/

namespace Look

abbrev Test := List Token → Bool

def word (w : String) : Test
  | .name t :: _ => t == w
  | _ => false

/-- Any word, also a keyword. -/
def anyWord : Test
  | .name _ :: _ => true
  | _ => false

def name : Test
  | .name t :: _ => isName t
  | _ => false

/-- A punctuation mark, given by its characters. -/
def marks : List Char → Test
  | [], _ => true
  | [c], .punct d _ :: _ => c == d
  | c :: cs, .punct d joint :: rest => c == d && joint && marks cs rest
  | _, _ => false

def mark (m : String) : Test := marks m.toList

def group (d : Delimiter) : Test
  | .group d' _ :: _ => d == d'
  | _ => false

/-- A group in any brackets. -/
def anyGroup : Test
  | .group .. :: _ => true
  | _ => false

def lifetime : Test
  | .punct '\'' true :: .name _ :: _ => true
  | _ => false

/-- Whether a literal is a number. -/
def isNumber : Literal → Bool
  | .integer .. => true
  | .float .. => true
  | _ => false

/-- A literal, also a truth value or a negative number. -/
def literal : Test
  | .literal _ :: _ => true
  | .name t :: _ => t == "true" || t == "false"
  | .punct '-' _ :: .literal l :: _ => isNumber l
  | _ => false

def text : Test
  | .literal (.string _) :: _ => true
  | _ => false

def skip : List Token → List Token
  | .punct '\'' true :: .name _ :: rest => rest
  | _ :: rest => rest
  | [] => []

/-- A test on the tokens after the first. -/
def second (t : Test) : Test := fun ts => t (skip ts)

/-- A test on the tokens after the second. -/
def third (t : Test) : Test := fun ts => t (skip (skip ts))

/-- Nothing ahead. -/
def nothing : Test := List.isEmpty

/-- One test or the other. -/
def either (a b : Test) : Test := fun ts => a ts || b ts

def words (ws : List String) : Test := fun ts => ws.any (word · ts)

def anyMark (ms : List String) : Test := fun ts => ms.any (mark · ts)

/-- One mark, but not as the start of any of some longer ones. -/
def markNot (m : String) (longer : List String) : Test := fun ts => mark m ts && !anyMark longer ts

end Look

/-! ## Parsers -/

/-- Where a parser stands. -/
structure Cursor where
  tokens : List Token
  /-- The items met in blocks so far, latest first. -/
  met : List Item := []
  /-- Whether a group was left before its end. -/
  leftover : Bool := false

abbrev Parser := StateT Cursor Option

namespace Parser

variable {α β : Type}

/-- Whether a test holds for the tokens ahead. -/
def sees (test : Look.Test) : Parser Bool := do return test (← get).tokens

/-- Whether there is nothing ahead. -/
def atEnd : Parser Bool := sees Look.nothing

def next : Parser Token := do
  match (← get).tokens with
  | t :: rest =>
    modify fun c => { c with tokens := rest }
    return t
  | [] => failure

def word (w : String) : Parser Unit := do
  match ← next with
  | .name t => if t == w then return () else failure
  | _ => failure

/-- Any word. -/
def anyWord : Parser String := do
  match ← next with
  | .name t => return t
  | _ => failure

def name : Parser String := do
  match ← next with
  | .name t => if isName t then return t else failure
  | _ => failure

def mark (m : String) : Parser Unit := do
  if ← sees (Look.mark m) then
    modify fun c => { c with tokens := c.tokens.drop m.length }
  else failure

def lifetime : Parser Unit := do
  if ← sees Look.lifetime then
    modify fun c => { c with tokens := Look.skip c.tokens }
  else failure

/-- What a parser takes if a test holds, else nothing. -/
def when? (test : Look.Test) (p : Parser α) : Parser (Option α) := do
  if ← sees test then return some (← p) else return none

/-- A word, if it is there, and whether it was. -/
def word? (w : String) : Parser Bool := do return (← when? (Look.word w) (word w)).isSome

/-- A mark, if it is there, and whether it was. -/
def mark? (m : String) : Parser Bool := do return (← when? (Look.mark m) (mark m)).isSome

def literal : Parser Literal := do
  match ← next with
  | .literal l => return l
  | .name "true" => return .bool true
  | .name "false" => return .bool false
  | .punct '-' _ =>
    match ← next with
    | .literal (.integer n s) => return .integer (-n) s
    | .literal (.float t ds s) => return .float ("-" ++ t) ("-" ++ ds) s
    | _ => failure
  | _ => failure

def text : Parser String := do
  match ← next with
  | .literal (.string s) => return s
  | _ => failure

/-- The inside of a group in given brackets, as a parser takes it. What it leaves is noted. -/
def within (d : Delimiter) (p : Parser α) : Parser α := do
  match ← next with
  | .group d' inner =>
    if d = d' then
      let outer ← get
      set { outer with tokens := inner }
      let a ← p
      modify fun c => { c with tokens := outer.tokens, leftover := c.leftover || !c.tokens.isEmpty }
      return a
    else failure
  | _ => failure

/-- A group in any brackets, with its tokens. -/
def anyGroup : Parser (Delimiter × List Token) := do
  match ← next with
  | .group d inner => return (d, inner)
  | _ => failure

/-- A group in given brackets, whatever is in it. -/
def skipGroup (d : Delimiter) : Parser Unit := within d (modify fun c => { c with tokens := [] })

/-- The value of a parser, or nothing, at the same place, if it fails. -/
def attempt (p : Parser α) : Parser (Option α) := fun c =>
  match p c with
  | some (a, c') => some (some a, c')
  | none => some (none, c)

/-- The value of a parser, at the same place. -/
def ahead (p : Parser α) : Parser α := do
  let c ← get
  let a ← p
  set c
  return a

/-- A step again and again, up to the first that yields nothing. A step that yields something has to
take a token, so the number of tokens bounds that of the steps. -/
def repeating (step : Parser (Option α)) : Parser (List α) := fun c => go (c.tokens.length + 1) c
where
  /-- At most so many steps. -/
  go : Nat → Cursor → Option (List α × Cursor)
    | 0, _ => none
    | bound + 1, c => do
      match ← step c with
      | (none, c) => some ([], c)
      | (some a, c) =>
        let (as, c) ← go bound c
        some (a :: as, c)

/-- Values up to where a test holds, with a separator between them and possibly after the last. -/
def separated (stop : Look.Test) (separator : Parser Unit) (p : Parser α) : Parser (List α) :=
  repeating do
    if ← sees stop then return none
    let a ← p
    if !(← sees stop) then separator
    return some a

/-- Values to the end, with commas between them. -/
def commaSeparated (p : Parser α) : Parser (List α) := separated Look.nothing (mark ",") p

/-- Values with a mark between them and possibly after the last: none where a stop stands, and no
more where the mark does not follow. -/
def joined (stop : Look.Test) (separator : String) (p : Parser α) : Parser (List α) := fun c =>
  go (c.tokens.length + 1) c
where
  /-- At most so many values. -/
  go : Nat → Cursor → Option (List α × Cursor)
    | 0, _ => none
    | bound + 1, c =>
      if stop c.tokens then some ([], c)
      else do
        let (a, c) ← p c
        if Look.mark separator c.tokens then do
          let (_, c) ← mark separator c
          let (as, c) ← go bound c
          some (a :: as, c)
        else some ([a], c)

/-- Notes items met in blocks, in order. -/
def note (items : List Item) : Parser Unit := modify fun c => { c with met := items.reverse ++ c.met }

/-- A parser with the items met inside it, which are not noted outside. -/
def collecting (p : Parser α) : Parser (α × List Item) := do
  let before := (← get).met
  modify fun c => { c with met := [] }
  let a ← p
  let inner := (← get).met.reverse
  modify fun c => { c with met := before }
  return (a, inner)

/-- A parser whose inner items do not count. -/
def sealed (p : Parser α) : Parser α := do return (← collecting p).1

/-- A parser whose inner items count if something holds of its value. -/
def countingIf (holds : α → Bool) (p : Parser α) : Parser α := do
  let (a, inner) ← collecting p
  if holds a then note inner
  return a

/-- The value of a parser that takes all tokens of a list and of every group it enters. -/
def runAll (p : Parser α) (tokens : List Token) : Option α :=
  match p { tokens } with
  | some (a, c) => if c.tokens.isEmpty && !c.leftover then some a else none
  | none => none

end Parser

end PayloadSchema.Source
