import PayloadSchema.Document

/-!
# Reading JSON

Reading has two steps. The first (`Draft.ofText?`) takes a text apart by the grammar alone: members may
repeat, a number is its digits, and a string that has half a surrogate pair is noted as such. The second
decides what is meant: a free value (`Draft.toValue?`) or a value of some type, which may skip over parts
that it does not know, and then nothing in those parts is looked at.

What is read may not be nested deeper than `Draft.nestingLimit`.
-/

namespace PayloadSchema.Json

/-- The digits of a number: before the point, after it, and the exponent with its sign. -/
structure Digits where
  negative : Bool
  whole : List Char
  fraction : Option (List Char)
  exponent : Option (Bool × List Char)
deriving DecidableEq, Repr

/-- A JSON text taken apart. A string is absent where an escape stands for half a character. -/
inductive Draft where
  | null
  | bool (value : Bool)
  | number (digits : Digits)
  | string (text : Option String)
  | array (elements : List Draft)
  | object (members : List (Option String × Draft))
deriving Inhabited

/-! ## Numbers -/

namespace Digits

/-- The greatest unsigned integer. -/
def wordMax : Nat := twoPow 64 - 1

/-- The value of one digit. -/
def digit (c : Char) : Nat := c.toNat - '0'.toNat

/-- Digits taken into a significand as long as it fits into 64 bits: the significand, and how many
digits were taken. -/
def accumulate (significand taken : Nat) : List Char → Nat × Nat
  | [] => (significand, taken)
  | c :: cs =>
    let next := 10 * significand + digit c
    if next ≤ wordMax then accumulate next (taken + 1) cs else (significand, taken)

/-- A significand scaled by a power of ten, in steps of at most 10^308, each rounded. There is no value
if it is too large. The number of steps bounds the exponents below; a result of zero ends the scaling. -/
def scale (negative : Bool) : Nat → Binary64 → Int → Option Binary64
  | 0, _, _ => some (if negative then Binary64.zero.neg else Binary64.zero)
  | steps + 1, f, exponent =>
    if exponent.natAbs ≤ 308 then
      let power := Binary64.ofNat (tenPow exponent.natAbs)
      let r := if 0 ≤ exponent then f.mul power else f.div power
      if r.isFinite then some (if negative then r.neg else r) else none
    else if f.isZero then some (if negative then f.neg else f)
    else if 0 ≤ exponent then none
    else scale negative steps (f.div (Binary64.ofNat (tenPow 308))) (exponent + 308)

/-- The double for a significand and an exponent; below 10^-1000 everything is zero. -/
def toReal? (negative : Bool) (significand : Nat) (exponent : Int) : Option Binary64 :=
  scale negative 5 (Binary64.ofNat significand) exponent

/-- The number that digits stand for. Without point and exponent it is an integer if it fits, but `-0`
is a double. A double keeps the digits that fit into 64 bits and scales them by a power of ten. -/
def toNumber? (d : Digits) : Option Number :=
  let (whole, taken) := accumulate 0 0 d.whole
  let dropped : Int := (d.whole.length : Int) - taken
  if d.fraction.isNone && d.exponent.isNone && dropped == 0
      && (!d.negative || (whole != 0 && whole ≤ twoPow 63)) then
    some (.integer (if d.negative then -(whole : Int) else whole))
  else
    let (significand, after) := match d.fraction with
      | none => (whole, 0)
      | some fraction => accumulate whole 0 fraction
    let shift : Int := dropped - after
    let real := match d.exponent with
      | none => toReal? d.negative significand shift
      | some (below, ds) =>
        let e := ds.foldl (fun n c => 10 * n + digit c) 0
        if e ≤ twoPow 31 - 1 then toReal? d.negative significand (if below then shift - e else shift + e)
        else if significand ≠ 0 ∧ ¬ below then none
        else some (.finite d.negative 0 0)
    real.map .real

end Digits

/-! ## Taking a text apart -/

namespace Draft

def isSpace (c : Char) : Bool := c == ' ' || c == '\n' || c == '\t' || c == '\r'

/-- The rest after white space. -/
def skipSpace (cs : List Char) : List Char := cs.dropWhile isSpace

/-- The value of a hexadecimal digit. -/
def hex? (c : Char) : Option Nat :=
  if c.isDigit then some (c.toNat - '0'.toNat)
  else if 'a' ≤ c ∧ c ≤ 'f' then some (c.toNat - 'a'.toNat + 10)
  else if 'A' ≤ c ∧ c ≤ 'F' then some (c.toNat - 'A'.toNat + 10)
  else none

/-- The value of four hexadecimal digits. -/
def hex4? (a b c d : Char) : Option Nat := do
  return (((← hex? a) * 16 + (← hex? b)) * 16 + (← hex? c)) * 16 + (← hex? d)

/-- A unit of a string: a character, or half of a surrogate pair. -/
inductive CodeUnit where
  | char (c : Char)
  | high (n : Nat)
  | low (n : Nat)

/-- The unit of a hexadecimal escape. -/
def CodeUnit.ofEscape (n : Nat) : CodeUnit :=
  if 0xD800 ≤ n ∧ n < 0xDC00 then .high n
  else if 0xDC00 ≤ n ∧ n < 0xE000 then .low n
  else .char (Char.ofNat n)

/-- The text of a list of units: a high half must be followed by a low one, and nothing else may
be a half. -/
def decodeUnits : List CodeUnit → Option (List Char)
  | [] => some []
  | .char c :: rest => (decodeUnits rest).map (c :: ·)
  | .high h :: .low l :: rest =>
    (decodeUnits rest).map (Char.ofNat ((h - 0xD800) * 0x400 + (l - 0xDC00) + 0x10000) :: ·)
  | _ => none

/-- The units of a string up to its closing quote, and the rest after it. A control character has no
place in a string. -/
def units : List Char → Option (List CodeUnit × List Char)
  | '\"' :: rest => some ([], rest)
  | '\\' :: 'u' :: a :: b :: c :: d :: rest => do
    let n ← hex4? a b c d
    let (us, rest) ← units rest
    return (.ofEscape n :: us, rest)
  | '\\' :: e :: rest => do
    let c ← match e with
      | '\"' => some '\"'
      | '\\' => some '\\'
      | '/' => some '/'
      | 'b' => some (Char.ofNat 8)
      | 'f' => some (Char.ofNat 12)
      | 'n' => some '\n'
      | 'r' => some '\r'
      | 't' => some '\t'
      | _ => none
    let (us, rest) ← units rest
    return (.char c :: us, rest)
  | c :: rest =>
    if c.toNat < 32 ∨ c = '\\' then none
    else (units rest).map fun (us, rest) => (.char c :: us, rest)
  | [] => none

/-- A string after its opening quote. -/
def stringBody? (cs : List Char) : Option (Option String × List Char) :=
  (units cs).map fun (us, rest) => ((decodeUnits us).map String.ofList, rest)

/-- The fraction of a number, if there is one, and the rest after it. A point needs digits. -/
def fraction? : List Char → Option (Option (List Char) × List Char)
  | '.' :: rest =>
    let ds := rest.takeWhile Char.isDigit
    if ds = [] then none else some (some ds, rest.dropWhile Char.isDigit)
  | rest => some (none, rest)

/-- The digits of an exponent, at least one, with the sign before them, and the rest after them. -/
def exponentDigits? (below : Bool) (cs : List Char) : Option (Option (Bool × List Char) × List Char) :=
  let ds := cs.takeWhile Char.isDigit
  if ds = [] then none else some (some (below, ds), cs.dropWhile Char.isDigit)

/-- The exponent of a number, if there is one, and the rest after it. -/
def exponent? : List Char → Option (Option (Bool × List Char) × List Char)
  | c :: rest =>
    if c = 'e' ∨ c = 'E' then
      match rest with
      | '+' :: rest => exponentDigits? false rest
      | '-' :: rest => exponentDigits? true rest
      | rest => exponentDigits? false rest
    else some (none, c :: rest)
  | [] => some (none, [])

/-- A number: no digit may follow a leading zero. -/
def number? (negative : Bool) (cs : List Char) : Option (Digits × List Char) :=
  let whole := cs.takeWhile Char.isDigit
  if whole = [] ∨ (whole.head? = some '0' ∧ whole ≠ ['0']) then none
  else do
    let (fraction, rest) ← fraction? (cs.dropWhile Char.isDigit)
    let (exponent, rest) ← exponent? rest
    return (⟨negative, whole, fraction, exponent⟩, rest)

def word? : List Char → List Char → Option (List Char)
  | [], cs => some cs
  | w :: ws, c :: cs => if w = c then word? ws cs else none
  | _ :: _, [] => none

mutual
/-- One value and the rest after it. Each level of the grammar takes one unit of the budget, and each
has read at least one character. -/
def value : Nat → List Char → Option (Draft × List Char)
  | 0, _ => none
  | budget + 1, cs =>
    match skipSpace cs with
    | 'n' :: rest => (word? ['u', 'l', 'l'] rest).map (.null, ·)
    | 't' :: rest => (word? ['r', 'u', 'e'] rest).map (.bool true, ·)
    | 'f' :: rest => (word? ['a', 'l', 's', 'e'] rest).map (.bool false, ·)
    | '\"' :: rest => (stringBody? rest).map fun (s, rest) => (.string s, rest)
    | '-' :: rest => (number? true rest).map fun (d, rest) => (.number d, rest)
    | '[' :: rest =>
      match skipSpace rest with
      | ']' :: rest => some (.array [], rest)
      | rest => (elements budget rest).map fun (vs, rest) => (.array vs, rest)
    | '\x7b' :: rest =>
      match skipSpace rest with
      | '\x7d' :: rest => some (.object [], rest)
      | rest => (members budget rest).map fun (ms, rest) => (.object ms, rest)
    | rest => (number? false rest).map fun (d, rest) => (.number d, rest)
/-- Elements separated by commas, up to the closing bracket. -/
def elements : Nat → List Char → Option (List Draft × List Char)
  | 0, _ => none
  | budget + 1, cs => do
    let (v, rest) ← value budget cs
    match skipSpace rest with
    | ',' :: rest => (elements budget rest).map fun (vs, rest) => (v :: vs, rest)
    | ']' :: rest => some ([v], rest)
    | _ => none
/-- Members separated by commas, up to the closing brace. -/
def members : Nat → List Char → Option (List (Option String × Draft) × List Char)
  | 0, _ => none
  | budget + 1, cs => do
    let '\"' :: rest := skipSpace cs | none
    let (k, rest) ← stringBody? rest
    let ':' :: rest := skipSpace rest | none
    let (v, rest) ← value budget rest
    match skipSpace rest with
    | ',' :: rest => (members budget rest).map fun (ms, rest) => ((k, v) :: ms, rest)
    | '\x7d' :: rest => some ([(k, v)], rest)
    | _ => none
end

/-- A whole text taken apart; nothing but white space may follow the value. -/
def ofText? (text : String) : Option Draft := do
  let cs := text.toList
  let (v, rest) ← value (2 * cs.length + 2) cs
  if skipSpace rest = [] then some v else none

/-! ## Free values -/

mutual
/-- The free value that a draft stands for, nested at most `depth` deep: every number has to be in
range, and every string whole. -/
def toValueAt? (depth : Nat) : Draft → Option Value
  | .null => some .null
  | .bool b => some (.bool b)
  | .number d => d.toNumber?.map .number
  | .string s => s.map .string
  | .array vs => do return .array (← toElementsAt? (← Document.descend? depth) vs)
  | .object ms => do return .ofMembers (← toMembersAt? (← Document.descend? depth) ms)
/-- The elements of an array as free values. -/
def toElementsAt? (depth : Nat) : List Draft → Option (List Value)
  | [] => some []
  | v :: vs => do return (← toValueAt? depth v) :: (← toElementsAt? depth vs)
/-- The members of an object as free values. -/
def toMembersAt? (depth : Nat) : List (Option String × Draft) → Option (List (String × Value))
  | [] => some []
  | (k, v) :: ms => do return (← k, ← toValueAt? depth v) :: (← toMembersAt? depth ms)
end

/-- How deep arrays and objects may be nested, the outermost counted. -/
def nestingLimit : Nat := 127

/-- The free value that a draft stands for. -/
def toValue? (d : Draft) : Option Value := toValueAt? nestingLimit d

end Draft

/-- A JSON text as a document. A choice is a string, or an object whose one member has the name of the
alternative and no value. -/
def document : Document Draft where
  nesting := Draft.nestingLimit
  absent?
    | .null => some true
    | _ => some false
  text?
    | .string s => s
    | _ => none
  natural?
    | .number d => match d.toNumber? with
      | some (.integer (.ofNat n)) => some n
      | _ => none
    | _ => none
  real?
    | .number d => d.toNumber?.map Number.toReal
    | _ => none
  choice? depth
    | .string s => s
    | .object [(name, .null)] => do
      let _ ← Document.descend? depth
      name
    | _ => none
  value? := Draft.toValueAt?
  elements?
    | .array vs => some vs
    | _ => none
  members?
    | .object ms => some ms
    | _ => none

/-- The free value that a text stands for. -/
def Value.ofText? (text : String) : Option Value := (Draft.ofText? text).bind (·.toValue?)

end PayloadSchema.Json
