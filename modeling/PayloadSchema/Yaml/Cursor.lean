/-!
# Places in YAML text

A cursor is what is left of a text together with its place: the line, the column and the number of
characters before it. There are five line breaks, and a carriage return with a line feed after it is one.
Inside a scalar a gap of blanks and line breaks is folded: one break becomes a space, and of several the
first is dropped.

* `Cursor.takeWhile`, `Cursor.skip` — moving along a line;
* `Cursor.takeGap` — the gap in front, and `Gap.fold` the text that it stands for.
-/

namespace PayloadSchema.Yaml

/-! ## Characters -/

/-- The characters that a text may have. -/
def isAllowed (c : Char) : Bool :=
  let n := c.toNat
  n == 9 || n == 10 || n == 13 || (0x20 ≤ n && n ≤ 0x7E) || n == 0x85 || (0xA0 ≤ n && n ≤ 0xFFFD)
    || 0x10000 ≤ n

/-- The mark that may stand at the start of a text. -/
def byteOrderMark : Char := Char.ofNat 0xFEFF

/-- A line break. -/
def isBreak (c : Char) : Bool :=
  let n := c.toNat
  n == 10 || n == 13 || n == 0x85 || n == 0x2028 || n == 0x2029

/-- A space or a tab. -/
def isBlank (c : Char) : Bool := c == ' ' || c == '\t'

/-- A blank or a line break. -/
def isGap (c : Char) : Bool := isBlank c || isBreak c

/-- Whether a text starts with a gap or ends here. -/
def startsGap : List Char → Bool
  | [] => true
  | c :: _ => isGap c

/-- The characters of names. -/
def isWord (c : Char) : Bool := c.isAlphanum || c == '_' || c == '-'

/-- What a line break stands for in a scalar. -/
def breakText (c : Char) : Char := if c.toNat = 0x2028 ∨ c.toNat = 0x2029 then c else '\n'

/-! ## Cursors -/

/-- A place in a text. -/
structure Position where
  /-- How many characters are before it. -/
  index : Nat := 0
  line : Nat := 0
  column : Nat := 0
deriving Inhabited

namespace Position

/-- The place some characters on, on the same line. -/
def advance (p : Position) (count : Nat) : Position :=
  { p with index := p.index + count, column := p.column + count }

/-- The place after a line break of so many characters. -/
def nextLine (p : Position) (count : Nat) : Position :=
  { index := p.index + count, line := p.line + 1, column := 0 }

end Position

/-- What is left of a text, and where it starts. -/
structure Cursor where
  position : Position
  rest : List Char
deriving Inhabited

namespace Cursor

/-- The column. -/
def column (c : Cursor) : Nat := c.position.column

/-- The cursor some characters on, none of which is a line break. -/
def skip (c : Cursor) (count : Nat) : Cursor := ⟨c.position.advance count, c.rest.drop count⟩

/-- The characters in front that a class has, which has no line breaks, and the cursor after them. -/
def takeWhile (c : Cursor) (p : Char → Bool) : List Char × Cursor :=
  let taken := c.rest.takeWhile p
  (taken, ⟨c.position.advance taken.length, c.rest.dropWhile p⟩)

/-- The cursor after the characters in front that a class has. -/
def skipWhile (c : Cursor) (p : Char → Bool) : Cursor := (c.takeWhile p).2

/-- The line break in front, if there is one, and the cursor after it. -/
def takeBreak (c : Cursor) : Option Char × Cursor :=
  match c.rest with
  | '\r' :: '\n' :: rest => (some '\n', ⟨c.position.nextLine 2, rest⟩)
  | b :: rest => if isBreak b then (some (breakText b), ⟨c.position.nextLine 1, rest⟩) else (none, c)
  | [] => (none, c)

/-- Whether the line starts with a mark of three characters that separates documents. -/
def atDocumentMark (c : Cursor) : Bool :=
  c.column == 0 &&
    match c.rest with
    | '-' :: '-' :: '-' :: rest => startsGap rest
    | '.' :: '.' :: '.' :: rest => startsGap rest
    | _ => false

end Cursor

/-! ## Gaps -/

/-- A gap inside a scalar. -/
structure Gap where
  /-- The blanks before the first line break. -/
  blanks : List Char := []
  /-- Whether there was a line break, perhaps an escaped one. -/
  broken : Bool := false
  /-- The first line break that counts. -/
  first : Option Char := none
  later : List Char := []

namespace Gap

/-- The gap with one more blank; after a line break it does not count. -/
def addBlank (g : Gap) (c : Char) : Gap := if g.broken then g else { g with blanks := g.blanks ++ [c] }

/-- The gap with one more line break. -/
def addBreak (g : Gap) (c : Char) : Gap :=
  if g.broken then { g with later := g.later ++ [c] } else { g with broken := true, first := some c }

/-- The text that a gap stands for. -/
def fold (g : Gap) : List Char :=
  if g.broken then
    match g.first with
    | some '\n' => if g.later = [] then [' '] else g.later
    | some c => c :: g.later
    | none => g.later
  else g.blanks

end Gap

/-- The gap in front of a text that goes on one already taken, and the cursor after it. A tab may not
stand for indentation before a given column. -/
def takeGap (least : Nat) : Gap → Position → List Char → Option (Gap × Cursor)
  | g, p, '\r' :: '\n' :: rest => takeGap least (g.addBreak '\n') (p.nextLine 2) rest
  | g, p, c :: rest =>
    if isBreak c then takeGap least (g.addBreak (breakText c)) (p.nextLine 1) rest
    else if isBlank c then
      if g.broken ∧ c = '\t' ∧ p.column < least then none
      else takeGap least (g.addBlank c) (p.advance 1) rest
    else some (g, ⟨p, c :: rest⟩)
  | g, p, [] => some (g, ⟨p, []⟩)

/-- The gap in front of a cursor. -/
def Cursor.takeGap (c : Cursor) (least : Nat) (start : Gap) : Option (Gap × Cursor) :=
  Yaml.takeGap least start c.position c.rest

end PayloadSchema.Yaml
