import PayloadSchema.Number.Decimal

/-!
# Scalars

A scalar is a text in one of five styles, perhaps with a tag. A plain one may mean something else than its
text: the null value, a truth value, an integer in one of four bases, or a double. Digits with a zero
before them are a text.

* `Meaning.ofPlain` — what a plain scalar means;
* `unsigned?`, `signed?`, `double?` — the notations of numbers.
-/

namespace PayloadSchema.Yaml

/-- How a scalar is written. -/
inductive ScalarStyle where
  | plain
  | singleQuoted
  | doubleQuoted
  | literal
  | folded
deriving DecidableEq, Repr, Inhabited

/-- A scalar. -/
structure Scalar where
  text : String
  style : ScalarStyle
  tag : Option String := none
deriving DecidableEq, Repr, Inhabited

/-! ## Notations -/

/-- The words for the null value. -/
def isNullWord (text : String) : Bool := ["null", "Null", "NULL", "~"].contains text

def truth? (text : String) : Option Bool :=
  if ["true", "True", "TRUE"].contains text then some true
  else if ["false", "False", "FALSE"].contains text then some false
  else none

/-- Digits with a zero before them, perhaps with a sign. -/
def isPadded (cs : List Char) : Bool :=
  let digits := match cs with
    | '-' :: rest => rest
    | '+' :: rest => rest
    | cs => cs
  match digits with
  | '0' :: rest => rest ≠ [] && rest.all Char.isDigit
  | _ => false

/-- The value of a digit in a base of at most sixteen. -/
def digit? (base : Nat) (c : Char) : Option Nat :=
  let value :=
    if c.isDigit then c.toNat - '0'.toNat
    else if 'a' ≤ c ∧ c ≤ 'f' then c.toNat - 'a'.toNat + 10
    else if 'A' ≤ c ∧ c ≤ 'F' then c.toNat - 'A'.toNat + 10
    else base
  if value < base then some value else none

/-- The number of a run of digits in a base. -/
def natural? (base : Nat) (cs : List Char) : Option Nat :=
  if cs = [] then none
  else cs.foldlM (fun n c => (digit? base c).map (base * n + ·)) 0

/-- Digits after the mark of their base, if any. -/
def unmarked? : List Char → Option Nat
  | '0' :: 'x' :: digits => natural? 16 digits
  | '0' :: 'o' :: digits => natural? 8 digits
  | '0' :: 'b' :: digits => natural? 2 digits
  | digits => natural? 10 digits

/-- An integer without a minus sign. -/
def unsigned? (text : String) : Option Nat :=
  let cs := text.toList
  if isPadded cs then none
  else
    match cs with
    | '+' :: rest => unmarked? rest
    | cs => unmarked? cs

/-- An integer with a minus sign: its magnitude. -/
def negated? (text : String) : Option Nat :=
  let cs := text.toList
  if isPadded cs then none
  else
    match cs with
    | '-' :: rest => unmarked? rest
    | _ => none

/-- A double; the words of infinities and of not-a-number start with a point. -/
def double? (text : String) : Option Binary64 :=
  let unsigned := match text.toList with
    | '+' :: rest => String.ofList rest
    | _ => text
  if text.startsWith "+-" ∨ text.startsWith "++" then none
  else if [".inf", ".Inf", ".INF"].contains unsigned then some (.infinite false)
  else if ["-.inf", "-.Inf", "-.INF"].contains text then some (.infinite true)
  else if [".nan", ".NaN", ".NAN"].contains text then some .nan
  else (Decimal.read? unsigned).filter (·.isFinite)

/-! ## Meanings -/

/-- What a scalar means. -/
inductive Meaning where
  | null
  | bool (value : Bool)
  /-- An integer of at most 64 bits, signed or unsigned. -/
  | integer (value : Int)
  /-- An integer of more than 64 but at most 128 bits. -/
  | wide
  | real (value : Binary64)
  | text
deriving DecidableEq, Repr

namespace Meaning

/-- An integer as a meaning, if it has at most 128 bits. -/
def ofInteger? (text : String) : Option Meaning :=
  match unsigned? text with
  | some n => if n < twoPow 64 then some (.integer n) else if n < twoPow 128 then some .wide else none
  | none =>
    match negated? text with
    | some n =>
      if n ≤ twoPow 63 then some (.integer (-(n : Int))) else if n ≤ twoPow 127 then some .wide else none
    | none => none

def ofPlain (text : String) : Meaning :=
  if text = "" ∨ isNullWord text then .null
  else
    match truth? text with
    | some b => .bool b
    | none =>
      match ofInteger? text with
      | some meaning => meaning
      | none =>
        match if isPadded text.toList then none else double? text with
        | some x => .real x
        | none => .text

end Meaning

end PayloadSchema.Yaml
