import PayloadSchema.Yaml.Lexeme

/-!
# From text to tokens

The tokens of a text come from left to right. Outside brackets and braces the indentation opens and closes
blocks. A key that is not marked shows itself only by the colon after it: wherever one may start, the place
is kept as a candidate, and the colon turns the candidate into a key. A candidate lasts to the end of its
line and for `keyReach` characters.

* `Lexer.step?` — the next token;
* `tokens?` — all tokens of a text.
-/

namespace PayloadSchema.Yaml

/-- A place where a key may have started. -/
structure Candidate where
  position : Position
  /-- How many tokens are before it. -/
  before : Nat
  /-- Whether only a key can stand there. -/
  required : Bool

/-- How many characters a key without a mark may have. -/
def keyReach : Nat := 1024

/-- A text of which some is read. -/
structure Lexer where
  cursor : Cursor
  /-- The tokens so far, the latest first. -/
  tokens : List Token := []
  /-- The columns of the open blocks, the innermost first. -/
  indents : List Nat := []
  /-- Whether a key may start here. -/
  keyAllowed : Bool := true
  /-- The candidates of the open brackets and braces and of what is around them, the innermost first. -/
  candidates : List (Option Candidate) := [none]

namespace Lexer

/-- The lexer with one more token. -/
def emit (s : Lexer) (t : Token) : Lexer := { s with tokens := t :: s.tokens }

/-- The lexer with one more token that has so many before it. -/
def emitAt (s : Lexer) (before : Nat) (t : Token) : Lexer :=
  { s with tokens := s.tokens.insertIdx (s.tokens.length - before) t }

/-- Whether we are inside brackets or braces. -/
def inFlow (s : Lexer) : Bool := 1 < s.candidates.length

/-- The column. -/
def column (s : Lexer) : Nat := s.cursor.column

/-- The lexer so many characters on. -/
def skip (s : Lexer) (count : Nat) : Lexer := { s with cursor := s.cursor.skip count }

/-! ## Blocks -/

/-- The lexer with the blocks closed that are indented beyond a column, or with all closed. -/
def closeBlocks (s : Lexer) (column : Option Nat) : Lexer :=
  if s.inFlow then s
  else
    let deeper (indent : Nat) : Bool := column.all (· < indent)
    let closed := (s.indents.takeWhile deeper).length
    { s with
      indents := s.indents.dropWhile deeper
      tokens := List.replicate closed .blockEnd ++ s.tokens }

/-- The lexer with a block opened at a column, if it is beyond that of the innermost one. -/
def openBlock (s : Lexer) (column before : Nat) (t : Token) : Lexer :=
  if !s.inFlow && s.indents.head?.all (· < column) then
    { s.emitAt before t with indents := column :: s.indents }
  else s

/-! ## Keys -/

/-- Whether a candidate is out of reach. -/
def isStale (p : Position) (k : Candidate) : Bool :=
  k.position.line < p.line || k.position.index + keyReach < p.index

/-- The lexer without the candidates out of reach, none of which may be required. -/
def dropStale? (s : Lexer) : Option Lexer := do
  let candidates ← s.candidates.mapM fun
    | some k =>
      if isStale s.cursor.position k then (if k.required then none else some none) else some (some k)
    | none => some none
  return { s with candidates }

/-- The lexer without the innermost candidate, which may not be required. -/
def dropKey? (s : Lexer) : Option Lexer :=
  match s.candidates with
  | some k :: rest => if k.required then none else some { s with candidates := none :: rest }
  | _ => some s

/-- The lexer with this place as a candidate, if a key may start here. A key has to, where the line starts
at the indentation of a block. -/
def keepKey? (s : Lexer) : Option Lexer :=
  if s.keyAllowed then do
    let s ← s.dropKey?
    let candidate : Candidate :=
      { position := s.cursor.position, before := s.tokens.length
        required := !s.inFlow && s.indents.head? == some s.column }
    return { s with candidates := some candidate :: s.candidates.drop 1 }
  else some s

/-- The lexer with another say on whether a key may start. -/
def allow (s : Lexer) (keyAllowed : Bool) : Lexer := { s with keyAllowed }

/-! ## Tokens -/

/-- A token of a few characters that separates documents. -/
def documentMark? (s : Lexer) (t : Token) : Option Lexer := do
  let s ← (s.closeBlocks none).dropKey?
  return ((s.allow false).emit t).skip 3

def openFlow? (s : Lexer) (t : Token) : Option Lexer := do
  let s ← s.keepKey?
  return (({ s with candidates := none :: s.candidates }.allow true).emit t).skip 1

def closeFlow? (s : Lexer) (t : Token) : Option Lexer := do
  let s ← s.dropKey?
  let s := if s.inFlow then { s with candidates := s.candidates.drop 1 } else s
  return ((s.allow false).emit t).skip 1

def comma? (s : Lexer) : Option Lexer := do
  let s ← s.dropKey?
  return ((s.allow true).emit .comma).skip 1

/-- The lexer with a block opened here, where something that starts a block stands. -/
def openHere? (s : Lexer) (t : Token) : Option Lexer :=
  if s.inFlow then some s
  else if s.keyAllowed then some (s.openBlock s.column s.tokens.length t)
  else none

def dash? (s : Lexer) : Option Lexer := do
  let s ← (← s.openHere? .blockSequence).dropKey?
  return ((s.allow true).emit .dash).skip 1

def key? (s : Lexer) : Option Lexer := do
  let s ← (← s.openHere? .blockMapping).dropKey?
  return ((s.allow !s.inFlow).emit .key).skip 1

/-- The mark of a value, which makes a key of the candidate. -/
def value? (s : Lexer) : Option Lexer :=
  match s.candidates with
  | some k :: rest =>
    let s := (s.emitAt k.before .key).openBlock k.position.column k.before .blockMapping
    some ((({ s with candidates := none :: rest }.allow false).emit .value).skip 1)
  | _ => do
    let s ← s.openHere? .blockMapping
    return ((s.allow !s.inFlow).emit .value).skip 1

/-- A token that may be part of a key, read by a reader of lexemes. -/
def part? {α : Type} (s : Lexer) (read : Cursor → Option (α × Cursor)) (token : α → Token) :
    Option Lexer := do
  let s ← s.keepKey?
  let (a, cursor) ← read s.cursor
  return ({ s with cursor }.allow false).emit (token a)

def quoted? (s : Lexer) (single : Bool) : Option Lexer :=
  s.part? (quotedScalar? single) fun text =>
    .scalar text (if single then .singleQuoted else .doubleQuoted)

/-- A plain scalar. A key may start after one that ends with a line. -/
def plain? (s : Lexer) : Option Lexer := do
  let least := match s.indents.head? with
    | some n => n + 1
    | none => 0
  let s ← s.keepKey?
  let ((text, broken), cursor) ← plainScalar? s.inFlow least s.cursor
  return ({ s with cursor }.allow broken).emit (.scalar text .plain)

def block? (s : Lexer) (folded : Bool) : Option Lexer := do
  let s ← s.dropKey?
  let (text, cursor) ← blockScalar? folded s.indents.head? s.cursor
  return ({ s with cursor }.allow true).emit (.scalar text (if folded then .folded else .literal))

def directiveLine? (s : Lexer) : Option Lexer := do
  let s ← (s.closeBlocks none).dropKey?
  let (token, cursor) ← directive? s.cursor
  return ({ s with cursor }.allow false).emit token

/-- The place after blanks, comments and line breaks, and whether a key may start there. A tab is no blank
where a key may start in a block. -/
def afterGap (inFlow : Bool) : Bool → Bool → Position → List Char → Bool × Cursor
  | keyAllowed, _, p, '\r' :: '\n' :: rest =>
    afterGap inFlow (keyAllowed || !inFlow) false (p.nextLine 2) rest
  | keyAllowed, inComment, p, c :: rest =>
    if isBreak c then afterGap inFlow (keyAllowed || !inFlow) false (p.nextLine 1) rest
    else if inComment ∨ c = ' ' ∨ (c = '\t' ∧ (inFlow ∨ !keyAllowed)) then
      afterGap inFlow keyAllowed inComment (p.advance 1) rest
    else if c = '#' then afterGap inFlow keyAllowed true (p.advance 1) rest
    else (keyAllowed, ⟨p, c :: rest⟩)
  | keyAllowed, _, p, [] => (keyAllowed, ⟨p, []⟩)

/-- The lexer at the next token, with the blocks closed that end before it. -/
def advance? (s : Lexer) : Option Lexer := do
  let (keyAllowed, cursor) := afterGap s.inFlow s.keyAllowed false s.cursor.position s.cursor.rest
  let s ← { s with cursor, keyAllowed }.dropStale?
  return s.closeBlocks (some s.column)

/-- The characters that no plain scalar starts with, but for three of them that may with text after them. -/
def isMark (c : Char) : Bool :=
  ['-', '?', ':', ',', '[', ']', '\x7b', '\x7d', '#', '&', '*', '!', '|', '>', '\'', '\"', '%', '@',
    '`'].contains c

/-- The lexer after the token that starts with a character, given what is after it. -/
def token? (s : Lexer) (c : Char) (rest : List Char) : Option Lexer :=
  let apart := startsGap rest
  let inFlow := s.inFlow
  if s.column = 0 ∧ c = '%' then s.directiveLine?
  else if s.cursor.atDocumentMark then s.documentMark? (if c = '-' then .documentStart else .documentEnd)
  else if c = '[' then s.openFlow? .openBracket
  else if c = '\x7b' then s.openFlow? .openBrace
  else if c = ']' then s.closeFlow? .closeBracket
  else if c = '\x7d' then s.closeFlow? .closeBrace
  else if c = ',' then s.comma?
  else if c = '-' ∧ apart then s.dash?
  else if c = '?' ∧ (inFlow ∨ apart) then s.key?
  else if c = ':' ∧ (inFlow ∨ apart) then s.value?
  else if c = '*' then s.part? (fun c => name? (c.skip 1)) .aliasOf
  else if c = '&' then s.part? (fun c => name? (c.skip 1)) .anchor
  else if c = '!' then s.part? (tag? inFlow) fun (handle, rest) => .tag handle rest
  else if c = '|' ∧ !inFlow then s.block? false
  else if c = '>' ∧ !inFlow then s.block? true
  else if c = '\'' then s.quoted? true
  else if c = '\"' then s.quoted? false
  else if (!isMark c ∧ !isGap c) ∨ (c = '-' ∧ !apart) ∨ (!inFlow ∧ (c = '?' ∨ c = ':') ∧ !apart) then
    s.plain?
  else none

/-- The lexer after the end of the text: all blocks are closed. -/
def finish? (s : Lexer) : Option Lexer := (s.closeBlocks none).dropKey?

/-- The lexer at the end of the text. Each step takes at least a character. -/
def run? : Nat → Lexer → Option Lexer
  | 0, _ => none
  | budget + 1, s => do
    let s ← s.advance?
    match s.cursor.rest with
    | [] => s.finish?
    | c :: rest => run? budget (← s.token? c rest)

end Lexer

/-- The tokens of a text. A mark of the byte order may come first. -/
def tokens? (text : String) : Option (List Token) := do
  let cs := text.toList
  if !cs.all isAllowed then none
  let start : Cursor := ⟨{}, cs⟩
  let start := if cs.head? = some byteOrderMark then start.skip 1 else start
  let s ← Lexer.run? (cs.length + 1) { cursor := start }
  return s.tokens.reverse

end PayloadSchema.Yaml
