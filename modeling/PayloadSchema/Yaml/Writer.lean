import PayloadSchema.Yaml.Cursor
import PayloadSchema.Yaml.Scalar
import PayloadSchema.Json.Value

/-!
# Writing YAML

A value is written in blocks: a member or an element a line, two spaces for each level, a sequence under a
key at the level of the key, and `[]` or `\x7b\x7d` for what is empty. A text is plain unless it would then
be read as something else or break the layout; with a line feed in it, it is a literal block; and where even
quotes do not help, it is written with escapes.

* `styleOf` — how a text is written;
* `render` — the text of a value.
-/

namespace PayloadSchema.Yaml

open Json (Value)

/-! ## How a text is written -/

/-- The characters that need no escape. -/
def isPrintable (c : Char) : Bool :=
  let n := c.toNat
  n == 10 || (0x20 ≤ n && n ≤ 0x7E) || (0xA0 ≤ n && n ≤ 0xFFFD && n != 0xFEFF)
    || 0x10000 ≤ n

/-- Whether two neighbours among characters are such. -/
def hasNeighbours (p : Char → Char → Bool) : List Char → Bool
  | c :: d :: rest => p c d || hasNeighbours p (d :: rest)
  | _ => false

/-- Whether a space is before a line break. -/
def hasSpaceBreak : List Char → Bool := hasNeighbours fun c d => c == ' ' && isBreak d

/-- Whether a space is after a line break. -/
def hasBreakSpace : List Char → Bool := hasNeighbours fun c d => isBreak c && d == ' '

/-- The characters that mean something else at the start of a scalar. -/
def isLeadingMark (c : Char) : Bool :=
  ['#', ',', '[', ']', '\x7b', '\x7d', '&', '*', '!', '|', '>', '\'', '\"', '%', '@', '`'].contains c

/-- Whether the start of a text means something else. -/
def startsMark : List Char → Bool
  | '-' :: '-' :: '-' :: _ => true
  | '.' :: '.' :: '.' :: _ => true
  | c :: rest => isLeadingMark c || ((c == '?' || c == ':' || c == '-') && startsGap rest)
  | [] => false

/-- Whether a colon in a text ends a key or a number sign in it starts a comment. -/
def hasInnerMark : List Char → Bool
  | c :: d :: rest => (d == ':' && startsGap rest) || (isGap c && d == '#') || hasInnerMark (d :: rest)
  | _ => false

/-- A space or a line break. -/
def isSpaceOrBreak (c : Char) : Bool := c == ' ' || isBreak c

/-- Whether a text keeps its characters inside double quotes alone. -/
def needsEscapes (cs : List Char) : Bool := hasSpaceBreak cs || !cs.all isPrintable

/-- Whether a text may be plain, where it means itself. -/
def mayBePlain (cs : List Char) : Bool :=
  !(cs.head?.any isSpaceOrBreak || cs.getLast?.any isSpaceOrBreak || cs.any isBreak || needsEscapes cs
    || startsMark cs || hasInnerMark cs)

/-- Whether a text may be in single quotes. -/
def mayBeSingle (cs : List Char) : Bool := !(hasBreakSpace cs || needsEscapes cs)

/-- Whether a text may be a literal block. -/
def mayBeLiteral (cs : List Char) : Bool := !(cs.getLast? == some ' ' || needsEscapes cs)

/-- Whether a plain scalar of a text would mean something else. -/
def isAmbiguous (text : String) : Bool := Meaning.ofPlain text ≠ .text || isPadded text.toList

def styleOf (text : String) : ScalarStyle :=
  let cs := text.toList
  if cs.contains '\n' then if mayBeLiteral cs then .literal else .doubleQuoted
  else if !isAmbiguous text && mayBePlain cs then .plain
  else if mayBeSingle cs then .singleQuoted
  else .doubleQuoted

/-! ## The text of a scalar -/

def spaces (count : Nat) : List Char := List.replicate count ' '

/-- Characters in single quotes, with the line after a break indented; a quote is written twice. -/
def singleBody (indent : Nat) : Bool → List Char → List Char
  | broken, [] => if broken then spaces indent else []
  | broken, c :: cs =>
    if isBreak c then c :: singleBody indent true cs
    else
      (if broken then spaces indent else []) ++ (if c = '\'' then ['\'', '\''] else [c])
        ++ singleBody indent false cs

/-- The letter of the escape of a code point, if it has one. -/
def escapeLetter? (n : Nat) : Option Char :=
  ([(0, '0'), (7, 'a'), (8, 'b'), (9, 't'), (10, 'n'), (11, 'v'), (12, 'f'), (13, 'r'), (0x1B, 'e'),
    (0x22, '\"'), (0x5C, '\\'), (0x85, 'N'), (0xA0, '_'), (0x2028, 'L'), (0x2029, 'P')] :
    List (Nat × Char)).lookup n

/-- A number as so many hexadecimal digits in upper case. -/
def hexDigits (count n : Nat) : List Char :=
  let digits := (Nat.toDigits 16 n).map Char.toUpper
  List.replicate (count - digits.length) '0' ++ digits

def escape (c : Char) : List Char :=
  let n := c.toNat
  match escapeLetter? n with
  | some letter => ['\\', letter]
  | none =>
    if n ≤ 0xFF then '\\' :: 'x' :: hexDigits 2 n
    else if n ≤ 0xFFFF then '\\' :: 'u' :: hexDigits 4 n
    else '\\' :: 'U' :: hexDigits 8 n

def doubleBody (cs : List Char) : List Char :=
  cs.flatMap fun c => if !isPrintable c || isBreak c || c == '\"' || c == '\\' then escape c else [c]

/-- The lines of a literal block, each indented. -/
def literalBody (indent : Nat) : Bool → List Char → List Char
  | _, [] => []
  | broken, c :: cs =>
    if isBreak c then c :: literalBody indent true cs
    else (if broken then spaces indent else []) ++ c :: literalBody indent false cs

/-- How a literal block says what becomes of the line breaks at its end. -/
def chompingMark (cs : List Char) : List Char :=
  match cs.reverse with
  | [] => ['-']
  | [c] => if isBreak c then ['+'] else ['-']
  | c :: d :: _ => if !isBreak c then ['-'] else if isBreak d then ['+'] else []

/-- A literal block. Its indentation is said where its first line does not show it. -/
def literalText (indent : Nat) (cs : List Char) : List Char :=
  let hint := if cs.head?.any isSpaceOrBreak then ['2'] else []
  '|' :: hint ++ chompingMark cs ++ '\n' :: literalBody indent true cs

/-- A text as a scalar, whose further lines are indented. -/
def scalarText (indent : Nat) (text : String) : List Char :=
  let cs := text.toList
  match styleOf text with
  | .plain => cs
  | .singleQuoted => '\'' :: singleBody indent false cs ++ ['\'']
  | .literal => literalText indent cs
  | _ => '\"' :: doubleBody cs ++ ['\"']

def realText : Binary64 → String
  | .infinite negative => if negative then "-.inf" else ".inf"
  | .nan => ".nan"
  | x => Decimal.render false x

/-- Characters with a line break after them, unless they end with one. -/
def line (cs : List Char) : List Char := if cs.getLast?.any isBreak then cs else cs ++ ['\n']

/-! ## The text of a value -/

/-- The longest key without a mark, in bytes. -/
def longestKey : Nat := 128

def isSimpleKey (key : String) : Bool := key.utf8ByteSize ≤ longestKey && !key.toList.any isBreak

mutual
/-- A value after a mark at a level: what is inside starts on the same line. -/
def afterMark (level : Nat) : Value → List Char
  | .null => " null\n".toList
  | .bool b => (if b then " true\n" else " false\n").toList
  | .number (.integer n) => ' ' :: line (toString n).toList
  | .number (.real x) => ' ' :: line (realText x).toList
  | .string s => ' ' :: line (scalarText (level + 2) s)
  | .array [] => " []\n".toList
  | .array vs => ' ' :: elements (level + 2) true vs
  | .object [] => " \x7b\x7d\n".toList
  | .object ms => ' ' :: members (level + 2) true ms
/-- A value after a key at a level: what is inside starts on a line of its own. -/
def afterKey (level : Nat) : Value → List Char
  | .null => " null\n".toList
  | .bool b => (if b then " true\n" else " false\n").toList
  | .number (.integer n) => ' ' :: line (toString n).toList
  | .number (.real x) => ' ' :: line (realText x).toList
  | .string s => ' ' :: line (scalarText (level + 2) s)
  | .array [] => " []\n".toList
  | .array vs => '\n' :: elements level false vs
  | .object [] => " \x7b\x7d\n".toList
  | .object ms => '\n' :: members (level + 2) false ms
/-- The elements of a sequence; the first may go on a line already begun. -/
def elements (level : Nat) (begun : Bool) : List Value → List Char
  | [] => []
  | v :: vs =>
    (if begun then [] else spaces level) ++ '-' :: afterMark level v ++ elements level false vs
/-- The members of a mapping; the first may go on a line already begun. -/
def members (level : Nat) (begun : Bool) : List (String × Value) → List Char
  | [] => []
  | (key, v) :: ms =>
    let key' := scalarText (level + 2) key
    (if begun then [] else spaces level)
      ++ (if isSimpleKey key then key' ++ ':' :: afterKey level v
          else '?' :: ' ' :: line key' ++ spaces level ++ ':' :: afterMark level v)
      ++ members level false ms
end

def render : Value → String
  | .object (m :: ms) => String.ofList (members 0 false (m :: ms))
  | .array (v :: vs) => String.ofList (elements 0 false (v :: vs))
  | v => String.ofList ((afterMark 0 v).drop 1)

end PayloadSchema.Yaml
