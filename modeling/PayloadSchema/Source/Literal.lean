import PayloadSchema.Source.Token
import PayloadSchema.Text.Identifier
import PayloadSchema.Number.Decimal

/-!
# Literals

Reading one literal at the start of a text: the value it stands for and the rest after it. Strings and
characters come with their escapes, raw strings without; numbers come in four bases, with underscores, a
point, an exponent and a suffix. Any literal may have a name joined to it as its suffix.

Every reader answers `none` where the text is not such a literal.
-/

namespace PayloadSchema.Source.Literal

open Text (isIdentifierStart isIdentifierRest)

/-! ## Names -/

def plainName? : List Char → Option (List Char × List Char)
  | c :: rest =>
    if isIdentifierStart c then
      some (c :: rest.takeWhile isIdentifierRest, rest.dropWhile isIdentifierRest)
    else none
  | [] => none

/-- The rest after a suffix, if there is one. -/
def skipSuffix (cs : List Char) : List Char :=
  match plainName? cs with
  | some (_, rest) => rest
  | none => cs

/-! ## Escapes -/

/-- The value of a hexadecimal digit. -/
def hex? (c : Char) : Option Nat :=
  if c.isDigit then some (c.toNat - '0'.toNat)
  else if 'a' ≤ c ∧ c ≤ 'f' then some (c.toNat - 'a'.toNat + 10)
  else if 'A' ≤ c ∧ c ≤ 'F' then some (c.toNat - 'A'.toNat + 10)
  else none

/-- The escape `\x` of a character: at most 7F. -/
def asciiEscape? (a b : Char) : Option Char := do
  let high ← hex? a
  let low ← hex? b
  if high ≤ 7 then some (Char.ofNat (16 * high + low)) else none

/-- The digits of the escape `\u` between its braces: one to six, underscores after the first. -/
def scalarDigits? (value count : Nat) : List Char → Option (Char × List Char)
  | '\x7d' :: rest =>
    if 0 < count ∧ value.isValidChar then some (Char.ofNat value, rest) else none
  | '_' :: rest => if 0 < count then scalarDigits? value count rest else none
  | c :: rest =>
    match hex? c with
    | some d => if count < 6 then scalarDigits? (16 * value + d) (count + 1) rest else none
    | none => none
  | [] => none

/-- The escape `\u` after its letter. -/
def scalarEscape? : List Char → Option (Char × List Char)
  | '\x7b' :: rest => scalarDigits? 0 0 rest
  | _ => none

/-- The character of a one-letter escape that all quoted literals share. -/
def simpleEscape? : Char → Option Char
  | 'n' => some '\n'
  | 'r' => some '\r'
  | 't' => some '\t'
  | '\\' => some '\\'
  | '\'' => some '\''
  | '\"' => some '\"'
  | _ => none

/-- The rest after the blanks that follow a backslash at the end of a line. A carriage return counts only
before a line feed, and the text may not end there. The flag says that a carriage return came last. -/
def skipContinuation? (afterReturn : Bool) : List Char → Option (List Char)
  | [] => none
  | c :: rest =>
    if afterReturn then (if c = '\n' then skipContinuation? false rest else none)
    else if c = ' ' ∨ c = '\t' ∨ c = '\n' then skipContinuation? false rest
    else if c = '\r' then skipContinuation? true rest
    else some (c :: rest)

/-! ## Quoted literals -/

/-- What may stand in a quoted literal. -/
inductive Quoting where
  | text
  | bytes
  | terminated
deriving DecidableEq, Repr

/-- The escape after a backslash: the characters it stands for, and the rest. Bytes may be any and have no
scalar escape; in a terminated string nothing may be the null character. -/
def escape? (quoting : Quoting) : List Char → Option (List Char × List Char)
  | 'x' :: a :: b :: rest =>
    match quoting with
    | .text => (asciiEscape? a b).map fun c => ([c], rest)
    | .bytes => do
      let _ ← hex? a
      let _ ← hex? b
      return ([], rest)
    | .terminated => do
      let n := 16 * (← hex? a) + (← hex? b)
      if n = 0 then none else some ([], rest)
  | '0' :: rest => if quoting = .terminated then none else some ([Char.ofNat 0], rest)
  | 'u' :: rest =>
    if quoting = .bytes then none
    else do
      let (c, rest) ← scalarEscape? rest
      if quoting = .terminated ∧ c.toNat = 0 then none else some ([c], rest)
  | '\n' :: rest => (skipContinuation? false rest).map ([], ·)
  | '\r' :: rest => (skipContinuation? true rest).map ([], ·)
  | c :: rest => (simpleEscape? c).map fun d => ([d], rest)
  | [] => none

/-- The body of a quoted literal up to its closing quote. A carriage return has to come before a line
feed, and the two count as a line feed. The budget is the length of the text. -/
def body? (quoting : Quoting) : Nat → List Char → Option (List Char × List Char)
  | 0, _ => none
  | budget + 1, cs =>
    match cs with
    | [] => none
    | '\"' :: rest => some ([], rest)
    | '\r' :: '\n' :: rest => (body? quoting budget rest).map fun (v, rest) => ('\n' :: v, rest)
    | '\r' :: _ => none
    | '\\' :: rest => do
      let (e, rest) ← escape? quoting rest
      let (v, rest) ← body? quoting budget rest
      return (e ++ v, rest)
    | c :: rest =>
      if quoting = .bytes ∧ 128 ≤ c.toNat then none
      else if quoting = .terminated ∧ c.toNat = 0 then none
      else (body? quoting budget rest).map fun (v, rest) => (c :: v, rest)

/-- A quoted literal after its opening quote, with its suffix read over. -/
def quoted? (quoting : Quoting) (cs : List Char) : Option (String × List Char) :=
  (body? quoting (cs.length + 1) cs).map fun (v, rest) => (String.ofList v, skipSuffix rest)

/-- The rest after a given number of hash marks. -/
def hashes? : Nat → List Char → Option (List Char)
  | 0, cs => some cs
  | n + 1, '#' :: cs => hashes? n cs
  | _ + 1, _ => none

/-- The body of a raw literal, up to a quote with the right number of hash marks. -/
def rawBody? (quoting : Quoting) (marks : Nat) : List Char → Option (List Char × List Char)
  | [] => none
  | c :: rest =>
    if c = '\"' then
      match hashes? marks rest with
      | some rest => some ([], rest)
      | none => (rawBody? quoting marks rest).map fun (v, rest) => (c :: v, rest)
    else if c = '\r' ∧ rest.head? ≠ some '\n' then none
    else if quoting = .bytes ∧ 128 ≤ c.toNat then none
    else if quoting = .terminated ∧ c.toNat = 0 then none
    else (rawBody? quoting marks rest).map fun (v, rest) => (c :: v, rest)

/-- A raw literal after its letter: at most 255 hash marks, then a quote. -/
def raw? (quoting : Quoting) (cs : List Char) : Option (String × List Char) :=
  let marks := (cs.takeWhile (· = '#')).length
  match cs.dropWhile (· = '#') with
  | '\"' :: rest =>
    if marks ≤ 255 then
      (rawBody? quoting marks rest).map fun (v, rest) => (String.ofList v, skipSuffix rest)
    else none
  | _ => none

/-- One character or byte after the opening apostrophe, up to the closing one. -/
def character? (bytes : Bool) : List Char → Option (Unit × List Char)
  | '\\' :: rest => do
    let rest ← match rest with
      | 'x' :: a :: b :: rest =>
        if bytes then do
          let _ ← hex? a
          let _ ← hex? b
          some rest
        else (asciiEscape? a b).map fun _ => rest
      | 'u' :: rest => if bytes then none else (scalarEscape? rest).map (·.2)
      | '0' :: rest => some rest
      | c :: rest => (simpleEscape? c).map fun _ => rest
      | [] => none
    close rest
  | c :: rest => if bytes ∧ 128 ≤ c.toNat then none else close rest
  | [] => none
where
  /-- The closing apostrophe and a suffix. -/
  close : List Char → Option (Unit × List Char)
    | '\'' :: rest => some ((), skipSuffix rest)
    | _ => none

/-! ## Numbers -/

/-- The rest after a suffix, where nothing that goes on with a name may follow. -/
def numberSuffix? (cs : List Char) : Option (String × List Char) :=
  match plainName? cs with
  | some (name, rest) => some (String.ofList name, rest)
  | none =>
    match cs with
    | c :: _ => if isIdentifierRest c then none else some ("", cs)
    | [] => some ("", [])

/-- The exponent of a float after its letter: signs and digits with underscores, at least one digit. The
flags say whether a sign and a digit came before. -/
def exponent? (signed valued : Bool) : List Char → Option (List Char × List Char)
  | c :: rest =>
    if c = '+' ∨ c = '-' then
      if valued then some ([], c :: rest)
      else if signed then none
      else (exponent? true false rest).map fun (v, rest) => (c :: v, rest)
    else if c.isDigit then (exponent? signed true rest).map fun (v, rest) => (c :: v, rest)
    else if c = '_' then (exponent? signed valued rest).map fun (v, rest) => (c :: v, rest)
    else if valued then some ([], c :: rest) else none
  | [] => if valued then some ([], []) else none

/-- Digits and underscores. -/
def isDigitOrBar (c : Char) : Bool := c.isDigit || c == '_'

/-- The text of a float: digits, then a point that is not the start of a range or of a field, then an
exponent. It has a point or an exponent; an exponent without digits belongs to the suffix, and is only
possible after a point. -/
def floatText? (cs : List Char) : Option (List Char × List Char) :=
  let whole := cs.takeWhile isDigitOrBar
  let rest := cs.dropWhile isDigitOrBar
  match cs with
  | c :: _ =>
    if !c.isDigit then none
    else match rest with
      | '.' :: rest =>
        if rest.head?.any fun c => c = '.' || isIdentifierStart c then none
        else
          let text := whole ++ '.' :: rest.takeWhile isDigitOrBar
          let rest := rest.dropWhile isDigitOrBar
          match rest with
          | e :: after =>
            if e = 'e' ∨ e = 'E' then
              match exponent? false false after with
              | some (v, rest) => some (text ++ e :: v, rest)
              | none => some (text, rest)
            else some (text, rest)
          | [] => some (text, [])
      | e :: rest =>
        if e = 'e' ∨ e = 'E' then (exponent? false false rest).map fun (v, rest) => (whole ++ e :: v, rest)
        else none
      | [] => none
  | [] => none

def float? (cs : List Char) : Option (Literal × List Char) := do
  let (text, rest) ← floatText? cs
  let (suffix, rest) ← numberSuffix? rest
  let digits := text.filter fun c => c != '_' && c != '+'
  return (.float (String.ofList text) (String.ofList digits) suffix, rest)

/-- The base of a number by its first characters, and the rest after them. -/
def base : List Char → Nat × List Char
  | '0' :: 'x' :: rest => (16, rest)
  | '0' :: 'o' :: rest => (8, rest)
  | '0' :: 'b' :: rest => (2, rest)
  | cs => (10, cs)

/-- The digits of an integer: a decimal digit that the base does not have is no number, and a letter that
is no digit ends it. Underscores count for nothing. The value is absent before the first digit. -/
def integerDigits? (base : Nat) (value : Option Nat) : List Char → Option (Option Nat × List Char)
  | [] => some (value, [])
  | c :: rest =>
    if c = '_' then
      if value.isNone ∧ base = 10 then none else integerDigits? base value rest
    else match hex? c with
      | none => some (value, c :: rest)
      | some d =>
        if d < base then integerDigits? base (some (base * value.getD 0 + d)) rest
        else if c.isDigit then none
        else some (value, c :: rest)

def integer? (cs : List Char) : Option (Literal × List Char) := do
  let (base, rest) := base cs
  let (value, rest) ← integerDigits? base none rest
  let value ← value
  let (suffix, rest) ← numberSuffix? rest
  return (.integer value suffix, rest)

/-! ## All literals -/

/-- Any literal but a truth value, which is a name among the tokens. -/
def read? : List Char → Option (Literal × List Char)
  | '\"' :: rest => (quoted? .text rest).map fun (v, rest) => (.string v, rest)
  | '\'' :: rest => (character? false rest).map fun (_, rest) => (.other, rest)
  | 'r' :: rest => (raw? .text rest).map fun (v, rest) => (.string v, rest)
  | 'b' :: '\"' :: rest => (quoted? .bytes rest).map fun (_, rest) => (.other, rest)
  | 'b' :: 'r' :: rest => (raw? .bytes rest).map fun (_, rest) => (.other, rest)
  | 'b' :: '\'' :: rest => (character? true rest).map fun (_, rest) => (.other, rest)
  | 'c' :: '\"' :: rest => (quoted? .terminated rest).map fun (_, rest) => (.other, rest)
  | 'c' :: 'r' :: rest => (raw? .terminated rest).map fun (_, rest) => (.other, rest)
  | cs => (float? cs).or (integer? cs)

/-- The double nearest to a number that stands as a literal, whatever its suffix. -/
def toReal? : Literal → Option Binary64
  | .integer n _ => some (.ofInt n)
  | .float _ digits _ => Decimal.read? digits
  | _ => none

end PayloadSchema.Source.Literal
