import PayloadSchema.Yaml.Cursor
import PayloadSchema.Yaml.Token

/-!
# Lexemes of YAML

The parts of a text that stand for one token of more than a character or two: scalars in each style, names
of anchors, tags and directives. Each reader takes a cursor at the start of the part and gives the cursor
after it, or nothing where the text is not well formed.

* `plainScalar?`, `quotedScalar?`, `blockScalar?` — scalars;
* `tag?`, `name?`, `directive?` — the rest.
-/

namespace PayloadSchema.Yaml

/-- The characters that end a plain scalar inside brackets and braces. -/
def isFlowMark (c : Char) : Bool := c == ',' || c == '[' || c == ']' || c == '\x7b' || c == '\x7d'

/-! ## Plain scalars -/

/-- Whether a plain scalar ends at a character, given what is after it. -/
def endsPlain (inFlow : Bool) (c : Char) (rest : List Char) : Bool :=
  (c == ':' && startsGap rest) || (inFlow && isFlowMark c)

/-- Characters of a plain scalar without a gap. -/
def plainRun? (inFlow : Bool) : List Char → Option (List Char)
  | [] => some []
  | c :: rest =>
    if isGap c then some []
    else if inFlow ∧ c = ':' ∧ (rest.head?.any fun d => isFlowMark d || d == '?') then none
    else if endsPlain inFlow c rest then some []
    else (plainRun? inFlow rest).map (c :: ·)

/-- A plain scalar after some of its text and a gap. It goes on over line breaks as long as the text is
indented to a column, and it ends before a comment. The answer says whether a line break is the last that
was taken. -/
def plainText? (inFlow : Bool) (least : Nat) :
    Nat → List Char → Gap → Cursor → Option ((List Char × Bool) × Cursor)
  | 0, _, _, _ => none
  | budget + 1, text, gap, c =>
    if c.atDocumentMark ∨ c.rest.head? = some '#' then some ((text, gap.broken), c)
    else do
      let run ← plainRun? inFlow c.rest
      let (text, gap) := if run = [] then (text, gap) else (text ++ gap.fold ++ run, {})
      let c := c.skip run.length
      if !c.rest.head?.any isGap then return ((text, gap.broken), c)
      let (gap, c) ← c.takeGap least {}
      if !inFlow ∧ c.column < least then return ((text, gap.broken), c)
      plainText? inFlow least budget text gap c

/-- A plain scalar; the answer says whether it ends after a line break. -/
def plainScalar? (inFlow : Bool) (least : Nat) (c : Cursor) : Option ((String × Bool) × Cursor) :=
  (plainText? inFlow least (c.rest.length + 1) [] {} c).map fun ((text, broken), c) =>
    ((String.ofList text, broken), c)

/-! ## Quoted scalars -/

/-- The character of an escape of one letter. -/
def escaped? (c : Char) : Option Char :=
  (([('0', 0), ('a', 7), ('b', 8), ('t', 9), ('\t', 9), ('n', 10), ('v', 11), ('f', 12), ('r', 13),
    ('e', 0x1B), (' ', 0x20), ('\"', 0x22), ('/', 0x2F), ('\\', 0x5C), ('N', 0x85), ('_', 0xA0),
    ('L', 0x2028), ('P', 0x2029)] : List (Char × Nat)).lookup c).map Char.ofNat

/-- How many hexadecimal digits follow the letter of an escape. -/
def escapeLength? (c : Char) : Option Nat := ([('x', 2), ('u', 4), ('U', 8)] : List (Char × Nat)).lookup c

/-- The character of a code point given by hexadecimal digits. -/
def codePoint? (digits : List Char) : Option Char := do
  let n ← natural? 16 digits
  if n.isValidChar then some (Char.ofNat n) else none

/-- What is read of a quoted scalar up to a gap or its end: the characters, how many were taken, and
whether the last that was taken is an escaped line break. -/
structure QuotedRun where
  text : List Char := []
  length : Nat := 0
  broken : Bool := false

/-- The run after one more character, which takes several in the text. -/
def QuotedRun.cons (c : Char) (length : Nat) (r : QuotedRun) : QuotedRun :=
  { r with text := c :: r.text, length := r.length + length }

/-- A run inside single quotes: a quote is written twice. -/
def singleRun : List Char → QuotedRun
  | '\'' :: '\'' :: rest => (singleRun rest).cons '\'' 2
  | c :: rest => if c = '\'' ∨ isGap c then {} else (singleRun rest).cons c 1
  | [] => {}

/-- A run inside double quotes. Each step takes at least a character. -/
def doubleRun? : Nat → List Char → Option QuotedRun
  | 0, _ => none
  | budget + 1, cs =>
    match cs with
    | '\\' :: c :: rest =>
      if isBreak c then some { length := 1, broken := true }
      else
        match escapeLength? c with
        | some n => do
          let digits := rest.take n
          if digits.length < n then none
          let d ← codePoint? digits
          return (← doubleRun? budget (rest.drop n)).cons d (n + 2)
        | none => do
          let d ← escaped? c
          return (← doubleRun? budget rest).cons d 2
    | c :: rest =>
      if c = '\"' ∨ isGap c then some {}
      else if c = '\\' then none
      else (doubleRun? budget rest).map (·.cons c 1)
    | [] => some {}

/-- A quoted scalar after its opening quote and some of its text. -/
def quotedText? (single : Bool) : Nat → List Char → Cursor → Option (List Char × Cursor)
  | 0, _, _ => none
  | budget + 1, text, c =>
    if c.atDocumentMark ∨ c.rest = [] then none
    else do
      let run ← if single then some (singleRun c.rest) else doubleRun? (c.rest.length + 1) c.rest
      let c := c.skip run.length
      let c := if run.broken then c.takeBreak.2 else c
      let text := text ++ run.text
      if !run.broken ∧ c.rest.head? = some (if single then '\'' else '\"') then return (text, c.skip 1)
      let (gap, c) ← c.takeGap 0 { broken := run.broken }
      quotedText? single budget (text ++ gap.fold) c

/-- A quoted scalar, from its opening quote on. -/
def quotedScalar? (single : Bool) (c : Cursor) : Option (String × Cursor) :=
  (quotedText? single (c.rest.length + 1) [] (c.skip 1)).map fun (text, c) => (String.ofList text, c)

/-! ## Block scalars -/

/-- What becomes of the line breaks at the end of a block scalar. -/
inductive Chomping where
  | strip
  | clip
  | keep
deriving DecidableEq, Repr

/-- The chomping of an indicator. -/
def Chomping.ofChar? : Char → Option Chomping
  | '-' => some .strip
  | '+' => some .keep
  | _ => none

/-- The digit of an indentation in front, if there is any; zero is none. -/
def indentDigit? (c : Cursor) : Option (Option Nat × Cursor) :=
  match c.rest with
  | d :: _ =>
    if d = '0' then none
    else if d.isDigit then some (some (d.toNat - '0'.toNat), c.skip 1)
    else some (none, c)
  | [] => some (none, c)

/-- The chomping indicator in front, if there is any. -/
def chompingIn (c : Cursor) : Option Chomping × Cursor :=
  match c.rest.head?.bind Chomping.ofChar? with
  | some chomping => (some chomping, c.skip 1)
  | none => (none, c)

/-- The header of a block scalar after its first character: the indicators in either order. -/
def blockHeader? (c : Cursor) : Option ((Chomping × Option Nat) × Cursor) := do
  let (before, c) := chompingIn c
  let (indent, c) ← indentDigit? c
  let (chomping, c) := match before, indent with
    | none, some _ => chompingIn c
    | before, _ => (before, c)
  let c := c.skipWhile isBlank
  let c := if c.rest.head? = some '#' then c.skipWhile (!isBreak ·) else c
  if c.rest.head?.any (!isBreak ·) then none
  return ((chomping.getD .clip, indent), c.takeBreak.2)

/-- The line breaks in front of the next line with content, and how far any line up to it is indented.
Indentation goes up to a column, if that is known already. -/
def blockBreaks? (indent : Option Nat) (widest : Nat) (breaks : List Char) :
    Position → List Char → Option (List Char × Nat × Cursor)
  | p, '\r' :: '\n' :: rest =>
    blockBreaks? indent (max widest p.column) (breaks ++ ['\n']) (p.nextLine 2) rest
  | p, c :: rest =>
    let inside := indent.all (p.column < ·)
    if inside ∧ c = ' ' then blockBreaks? indent widest breaks (p.advance 1) rest
    else if inside ∧ c = '\t' then none
    else if isBreak c then
      blockBreaks? indent (max widest p.column) (breaks ++ [breakText c]) (p.nextLine 1) rest
    else some (breaks, max widest p.column, ⟨p, c :: rest⟩)
  | p, [] => some (breaks, max widest p.column, ⟨p, []⟩)

/-- What is read of a block scalar so far. -/
structure Block where
  text : List Char := []
  /-- The line break after the last line. -/
  last : Option Char := none
  /-- The breaks of the empty lines after it. -/
  breaks : List Char
  /-- Whether the last line starts with a blank. -/
  blank : Bool := false

/-- The text of a block with the breaks before one more line, which may start with a blank. Where lines
are folded, a single break between lines without blanks becomes a space. -/
def Block.joined (b : Block) (folded blank : Bool) : List Char :=
  if folded ∧ b.last = some '\n' ∧ !b.blank ∧ !blank then
    b.text ++ (if b.breaks = [] then [' '] else b.breaks)
  else b.text ++ b.last.toList ++ b.breaks

/-- The lines of a block scalar that are indented to a column. -/
def blockLines? (folded : Bool) (indent : Nat) : Nat → Block → Cursor → Option (Block × Cursor)
  | 0, _, _ => none
  | budget + 1, b, c =>
    if c.column = indent ∧ c.rest ≠ [] then do
      let blank := c.rest.head?.any isBlank
      let (line, c) := c.takeWhile (!isBreak ·)
      let (last, c) := c.takeBreak
      let (breaks, _, c) ← blockBreaks? (some indent) 0 [] c.position c.rest
      blockLines? folded indent budget { text := b.joined folded blank ++ line, last, breaks, blank } c
    else some (b, c)

/-- The text of a block after its end is treated. -/
def Block.chomp (b : Block) : Chomping → List Char
  | .strip => b.text
  | .clip => b.text ++ b.last.toList
  | .keep => b.text ++ b.last.toList ++ b.breaks

/-- A block scalar from its first character on, inside a block at an indentation, if there is any. Its own
indentation is given by a digit or by its first line with content, and it is greater. -/
def blockScalar? (folded : Bool) (outer : Option Nat) (c : Cursor) : Option (String × Cursor) := do
  let ((chomping, digit), c) ← blockHeader? (c.skip 1)
  let given := digit.map (outer.getD 0 + ·)
  let (breaks, widest, c) ← blockBreaks? given 0 [] c.position c.rest
  let least := match outer with
    | some n => n + 1
    | none => 1
  let indent := given.getD (max widest least)
  let (b, c) ← blockLines? folded indent (c.rest.length + 1) { breaks } c
  return (String.ofList (b.chomp chomping), c)

/-! ## Names and tags -/

/-- The name of an anchor or an alias, after its mark. -/
def name? (c : Cursor) : Option (String × Cursor) :=
  let (name, c) := c.takeWhile isWord
  let ends := match c.rest with
    | [] => true
    | d :: _ => isGap d || ['?', ':', ',', ']', '\x7d', '%', '@', '`'].contains d
  if name = [] ∨ !ends then none else some (String.ofList name, c)

/-- The characters of a tag. -/
def isTagChar (verbatim : Bool) (c : Char) : Bool :=
  isWord c || [';', '/', '?', ':', '@', '&', '=', '+', '$', '.', '%', '!', '~', '*', '\'', '(', ')'].contains c
    || (verbatim && [',', '[', ']'].contains c)

/-- A byte given by two hexadecimal digits. -/
def escapedByte? (a b : Char) : Option UInt8 := do
  return UInt8.ofNat (16 * (← digit? 16 a) + (← digit? 16 b))

/-- The bytes of the characters of a tag, escapes included. -/
def tagBytes? : List Char → Option (List UInt8)
  | '%' :: a :: b :: rest => do return (← escapedByte? a b) :: (← tagBytes? rest)
  | c :: rest => if c = '%' then none else do return (String.singleton c).toUTF8.toList ++ (← tagBytes? rest)
  | [] => some []

def tagRest? (verbatim : Bool) (c : Cursor) : Option (String × Cursor) := do
  let (cs, c) := c.takeWhile (isTagChar verbatim)
  let bytes ← tagBytes? cs
  return (← String.fromUTF8? ⟨bytes.toArray⟩, c)

/-- A handle of tags: names between exclamation marks, of which the second may be missing. -/
def handle? (c : Cursor) : Option (String × Cursor) :=
  match c.rest with
  | '!' :: _ =>
    let (name, after) := (c.skip 1).takeWhile isWord
    let text := "!" ++ String.ofList name
    if after.rest.head? = some '!' then some (text ++ "!", after.skip 1) else some (text, after)
  | _ => none

/-- A tag from its exclamation mark on: its handle, which may be empty, and the rest. -/
def tag? (inFlow : Bool) (c : Cursor) : Option ((String × String) × Cursor) := do
  let (tag, c) ←
    if c.rest.take 2 = ['!', '<'] then do
      let (rest, c) ← tagRest? true (c.skip 2)
      if rest = "" ∨ c.rest.head? ≠ some '>' then none
      pure (("", rest), c.skip 1)
    else do
      let (handle, c) ← handle? c
      if handle ≠ "!" ∧ handle.endsWith "!" then do
        let (rest, c) ← tagRest? false c
        if rest = "" then none
        pure ((handle, rest), c)
      else do
        let (rest, c) ← tagRest? false c
        let rest := String.ofList (handle.toList.drop 1) ++ rest
        pure (if rest = "" then ("", "!") else ("!", rest), c)
  if startsGap c.rest ∨ (inFlow ∧ c.rest.head? = some ',') then some (tag, c) else none

/-! ## Directives -/

def versionPart? (c : Cursor) : Option (Nat × Cursor) :=
  let (digits, c) := c.takeWhile Char.isDigit
  if digits = [] ∨ 9 < digits.length then none else (natural? 10 digits).map (·, c)

/-- The value of the directive for the version. -/
def versionDirective? (c : Cursor) : Option (Token × Cursor) := do
  let (major, c) ← versionPart? (c.skipWhile isBlank)
  if c.rest.head? ≠ some '.' then none
  let (minor, c) ← versionPart? (c.skip 1)
  return (.version major minor, c)

/-- The value of the directive for a handle of tags. -/
def handleDirective? (c : Cursor) : Option (Token × Cursor) := do
  let (handle, c) ← handle? (c.skipWhile isBlank)
  if handle ≠ "!" ∧ !handle.endsWith "!" then none
  if !c.rest.head?.any isBlank then none
  let (meaning, c) ← tagRest? true (c.skipWhile isBlank)
  if meaning = "" ∨ !startsGap c.rest then none
  return (.handle handle meaning, c)

/-- A directive from its percent sign on, with the rest of its line. -/
def directive? (c : Cursor) : Option (Token × Cursor) := do
  let (name, c) := (c.skip 1).takeWhile isWord
  if !startsGap c.rest then none
  let (token, c) ← match String.ofList name with
    | "YAML" => versionDirective? c
    | "TAG" => handleDirective? c
    | _ => none
  let c := c.skipWhile isBlank
  let c := if c.rest.head? = some '#' then c.skipWhile (!isBreak ·) else c
  if c.rest.head?.any (!isBreak ·) then none
  return (token, c.takeBreak.2)

end PayloadSchema.Yaml
