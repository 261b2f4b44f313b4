import PayloadSchema.Source.Literal
import PayloadSchema.Text.Blank

/-!
# Lexing

Source text becomes token trees (`Token.ofText?`). White space and comments fall away; a documentation
comment becomes the attribute that it stands for. Brackets have to match.
-/

namespace PayloadSchema.Source

open Literal (plainName?)

namespace Lexer

/-! ## White space and comments -/

/-- White space of source text; the two direction marks count. -/
def isSpace (c : Char) : Bool :=
  Text.isBlank c || c.toNat == 0x200E || c.toNat == 0x200F

/-- The rest from the end of the line on. -/
def skipLine (cs : List Char) : List Char := cs.dropWhile (· ≠ '\n')

/-- The text of a block comment from its opening to its close, comments nested, and the rest. -/
def blockComment? (depth : Nat) : List Char → Option (List Char × List Char)
  | '/' :: '*' :: rest => (blockComment? (depth + 1) rest).map fun (v, rest) => ('/' :: '*' :: v, rest)
  | '*' :: '/' :: rest =>
    if depth ≤ 1 then some (['*', '/'], rest)
    else (blockComment? (depth - 1) rest).map fun (v, rest) => ('*' :: '/' :: v, rest)
  | c :: rest => (blockComment? depth rest).map fun (v, rest) => (c :: v, rest)
  | [] => none

/-- The rest after one blank or one plain comment, if the text starts with one. Comments that document
something start with `///`, `//!`, `/**` or `/*!` and are no plain ones, but `////`, `/***` and `/**/`
are. -/
def skipOne? : List Char → Option (List Char)
  | '/' :: '/' :: '/' :: '/' :: rest => some (skipLine rest)
  | '/' :: '/' :: '/' :: _ => none
  | '/' :: '/' :: '!' :: _ => none
  | '/' :: '/' :: rest => some (skipLine rest)
  | '/' :: '*' :: '*' :: '/' :: rest => some rest
  | '/' :: '*' :: '*' :: '*' :: rest => (blockComment? 1 ('*' :: '*' :: rest)).map (·.2)
  | '/' :: '*' :: '*' :: _ => none
  | '/' :: '*' :: '!' :: _ => none
  | '/' :: '*' :: rest => (blockComment? 1 rest).map (·.2)
  | c :: rest => if isSpace c then some rest else none
  | [] => none

/-- The rest after all blanks and plain comments. The budget is the length of the text. -/
def skipSpace : Nat → List Char → List Char
  | 0, cs => cs
  | budget + 1, cs =>
    match skipOne? cs with
    | some rest => skipSpace budget rest
    | none => cs

/-- A line up to its end; a carriage return before the line feed is left out. -/
def line : List Char → List Char × List Char
  | [] => ([], [])
  | '\n' :: rest => ([], '\n' :: rest)
  | '\r' :: '\n' :: rest => ([], '\n' :: rest)
  | c :: rest =>
    let (v, rest) := line rest
    (c :: v, rest)

/-- No carriage return without a line feed after it. -/
def hasWholeLines : List Char → Bool
  | [] => true
  | c :: rest => (c != '\r' || rest.head? == some '\n') && hasWholeLines rest

/-- A documentation comment: whether it documents what is around it, its text, and the rest. -/
def docComment? (cs : List Char) : Option (Bool × List Char × List Char) := do
  let (inner, text, rest) ← match cs with
    | '/' :: '/' :: '!' :: rest => some (true, line rest)
    | '/' :: '*' :: '!' :: rest => block true rest
    | '/' :: '/' :: '/' :: '/' :: _ => none
    | '/' :: '/' :: '/' :: rest => some (false, line rest)
    | '/' :: '*' :: '*' :: '*' :: _ => none
    | '/' :: '*' :: '*' :: rest => block false rest
    | _ => none
  if hasWholeLines text then some (inner, text, rest) else none
where
  /-- A block comment without the two characters of its close. -/
  block (inner : Bool) (rest : List Char) : Option (Bool × List Char × List Char) :=
    (blockComment? 1 rest).map fun (v, rest) => (inner, v.take (v.length - 2), rest)

/-- The attribute that a documentation comment stands for. -/
def docTokens (inner : Bool) (text : List Char) : List Token :=
  .punct '#' false :: (if inner then [.punct '!' false] else [])
    ++ [.group .bracket
        [.name "doc", .punct '=' false, .literal (.string (String.ofList text))]]

/-! ## Leaves -/

/-- A name, possibly raw. A few words cannot be raw. -/
def anyName? : List Char → Option (String × List Char)
  | 'r' :: '#' :: rest => do
    let (name, rest) ← plainName? rest
    let name := String.ofList name
    if ["_", "super", "self", "Self", "crate"].contains name then none
    else some ("r#" ++ name, rest)
  | cs => (plainName? cs).map fun (name, rest) => (String.ofList name, rest)

/-- What looks like the start of a raw, byte or C string is no name. -/
def startsLiteral : List Char → Bool
  | 'r' :: '\"' :: _ => true
  | 'r' :: '#' :: '\"' :: _ => true
  | 'r' :: '#' :: '#' :: _ => true
  | 'b' :: '\"' :: _ => true
  | 'b' :: '\'' :: _ => true
  | 'b' :: 'r' :: '\"' :: _ => true
  | 'b' :: 'r' :: '#' :: _ => true
  | 'c' :: '\"' :: _ => true
  | 'c' :: 'r' :: '\"' :: _ => true
  | 'c' :: 'r' :: '#' :: _ => true
  | _ => false

/-- A punctuation character that does not start a comment. -/
def punctChar? : List Char → Option (Char × List Char)
  | '/' :: '/' :: _ => none
  | '/' :: '*' :: _ => none
  | c :: rest => if "~!@#$%^&*-=+|;:,<.>/?'".toList.contains c then some (c, rest) else none
  | [] => none

/-- A punctuation character as a token. An apostrophe starts a lifetime, which is a name that no
apostrophe follows. -/
def punct? (cs : List Char) : Option (Token × List Char) := do
  let (c, rest) ← punctChar? cs
  if c = '\'' then
    let (name, after) ← anyName? rest
    let raw := name.startsWith "r#"
    if after.head? = some '\'' ∨ (after.head? = some '#' ∧ !raw) then none
    else some (.punct '\'' true, rest)
  else some (.punct c (punctChar? rest).isSome, rest)

def leaf? (cs : List Char) : Option (Token × List Char) :=
  match Literal.read? cs with
  | some (l, rest) => some (.literal l, rest)
  | none =>
    match punct? cs with
    | some r => some r
    | none =>
      if startsLiteral cs then none
      else (anyName? cs).map fun (name, rest) => (.name name, rest)

/-- The brackets that a character opens. -/
def opening? : Char → Option Delimiter
  | '(' => some .parenthesis
  | '[' => some .bracket
  | '\x7b' => some .brace
  | _ => none

/-- The brackets that a character closes. -/
def closing? : Char → Option Delimiter
  | ')' => some .parenthesis
  | ']' => some .bracket
  | '\x7d' => some .brace
  | _ => none

/-- Token trees to the end of the text. `opened` are the groups that are open, each with the tokens
before it, latest first, and `done` are the tokens of the innermost, latest first. Every step reads at
least one character, so the length of the text bounds their number. -/
def run : Nat → List (Delimiter × List Token) → List Token → List Char → Option (List Token)
  | 0, _, _, _ => none
  | budget + 1, opened, done, cs =>
    let cs := skipSpace budget cs
    match docComment? cs with
    | some (inner, text, rest) => run budget opened ((docTokens inner text).reverse ++ done) rest
    | none =>
      match cs with
      | [] => if opened.isEmpty then some done.reverse else none
      | c :: rest =>
        match opening? c, closing? c with
        | some d, _ => run budget ((d, done) :: opened) [] rest
        | none, some d =>
          match opened with
          | (d', before) :: opened =>
            if d = d' then run budget opened (.group d done.reverse :: before) rest else none
          | [] => none
        | none, none => do
          let (t, rest) ← leaf? cs
          run budget opened (t :: done) rest

end Lexer

/-- A text without a byte order mark at its start. -/
def skipMark : List Char → List Char
  | c :: cs => if c.toNat = 0xFEFF then cs else c :: cs
  | [] => []

def Token.ofChars? (cs : List Char) : Option (List Token) :=
  let cs := skipMark cs
  Lexer.run (cs.length + 1) [] [] cs

def Token.ofText? (text : String) : Option (List Token) := ofChars? text.toList

end PayloadSchema.Source
