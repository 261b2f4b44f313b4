import PayloadSchema.Number.Binary64

/-!
# Decimal text and doubles

A decimal numeral is an integer with a power of ten. `Decimal.nearest` is the double nearest to it;
`Decimal.read?` reads the usual notation (`-1.5`, `.5`, `2e-7`, `inf`, `NaN`) and rounds once.

`Decimal.shortest` goes the other way: the fewest digits that read back as the same double, and of
those the nearest to it. `Decimal.render` lays the digits out: a point and at least one digit after it
up to 10^16, an exponent beyond, before which a plus sign may stand.
-/

namespace PayloadSchema

/-- `± digits · 10 ^ exponent`. -/
structure Decimal where
  negative : Bool
  digits : Nat
  exponent : Int
deriving DecidableEq, Repr

namespace Decimal

/-- The decimal digits of a number, most significant first; zero has one. -/
def digitsOf (n : Nat) : List Char := Nat.toDigits 10 n

/-- The double nearest to a decimal. Magnitudes beyond every double are answered without computing
their powers of ten. -/
def nearest (d : Decimal) : Binary64 :=
  let order : Int := (digitsOf d.digits).length + d.exponent
  if d.digits = 0 then .finite d.negative 0 0
  else if order > 310 then .infinite d.negative
  else if order < -330 then .finite d.negative 0 0
  else match d.exponent with
    | .ofNat e => .ofRatio d.negative (d.digits * tenPow e) 1
    | .negSucc e => .ofRatio d.negative d.digits (tenPow (e + 1))

/-! ## Reading -/

/-- The number that a run of decimal digits stands for. -/
def ofDigits (cs : List Char) : Nat :=
  cs.foldl (fun n c => 10 * n + (c.toNat - '0'.toNat)) 0

/-- A signed run of at least one digit, up to the end. -/
def readExponent? : List Char → Option Int
  | '-' :: cs => if cs ≠ [] ∧ cs.all Char.isDigit then some (-(ofDigits cs : Int)) else none
  | '+' :: cs => if cs ≠ [] ∧ cs.all Char.isDigit then some (ofDigits cs : Int) else none
  | cs => if cs ≠ [] ∧ cs.all Char.isDigit then some (ofDigits cs : Int) else none

/-- Digits with at most one point, then possibly an exponent: at least one digit before the
exponent, and nothing after it. -/
def readUnsigned? (negative : Bool) (cs : List Char) : Option Decimal :=
  let whole := cs.takeWhile Char.isDigit
  let rest := cs.dropWhile Char.isDigit
  let (fraction, rest) := match rest with
    | '.' :: rest => (rest.takeWhile Char.isDigit, rest.dropWhile Char.isDigit)
    | rest => ([], rest)
  if whole = [] ∧ fraction = [] then none
  else
    let value := ofDigits (whole ++ fraction)
    match rest with
    | [] => some ⟨negative, value, -(fraction.length : Int)⟩
    | c :: rest =>
      if c = 'e' ∨ c = 'E' then
        (readExponent? rest).map fun e => ⟨negative, value, e - fraction.length⟩
      else none

/-- An unsigned numeral, an infinity (`inf`, `infinity`) or `nan`, in any case of letters. -/
def readMagnitude? (negative : Bool) (cs : List Char) : Option Binary64 :=
  let word := String.ofList (cs.map Char.toLower)
  if word = "inf" ∨ word = "infinity" then some (.infinite negative)
  else if word = "nan" then some .nan
  else (readUnsigned? negative cs).map nearest

/-- The double that a whole text stands for. -/
def read? (text : String) : Option Binary64 :=
  match text.toList with
  | '-' :: cs => readMagnitude? true cs
  | '+' :: cs => readMagnitude? false cs
  | cs => readMagnitude? false cs

/-! ## Writing -/

/-- `num / den`, rounded down and up. -/
def neighbours (num den : Nat) : Nat × Nat :=
  (num / den, if num % den = 0 then num / den else num / den + 1)

/-- Of two candidates the one nearer to `num / den`; the even one on a tie. -/
def nearer (num den low high : Nat) : Nat :=
  let below := num - low * den
  let above := high * den - num
  if below < above ∨ (below = above ∧ low % 2 = 0) then low else high

/-- The two decimals with the given exponent that enclose the number `m · 2^e / 2^1074`, cut down to
those that read back as it; of two, the nearer. -/
def candidate? (m e : Nat) (exponent : Int) : Option Decimal :=
  let (num, den) := match exponent with
    | .ofNat k => (m * twoPow e, twoPow 1074 * tenPow k)
    | .negSucc k => (m * twoPow e * tenPow (k + 1), twoPow 1074)
  let (low, high) := neighbours num den
  let fits (n : Nat) : Bool := decide (nearest ⟨false, n, exponent⟩ = .finite false m e)
  match fits low, fits high with
  | true, true => some ⟨false, nearer num den low high, exponent⟩
  | true, false => some ⟨false, low, exponent⟩
  | false, true => some ⟨false, high, exponent⟩
  | false, false => none

/-- The exponent `k` with `10^k ≤ m · 2^e / 2^1074 < 10^(k+1)`, by way of the integer part of the
number or of its reciprocal. -/
def order (m e : Nat) : Int :=
  let num := m * twoPow e
  let den := twoPow 1074
  if den ≤ num then ((digitsOf (num / den)).length : Int) - 1
  else
    let inverse := den / num
    let k := (digitsOf inverse).length
    if inverse = tenPow (k - 1) ∧ den % num = 0 then -((k : Int) - 1) else -(k : Int)

/-- A decimal without trailing zero digits. -/
def strip : Nat → Decimal → Decimal
  | 0, d => d
  | n + 1, d =>
    if d.digits ≠ 0 ∧ d.digits % 10 = 0 then strip n ⟨d.negative, d.digits / 10, d.exponent + 1⟩ else d

/-- The fewest digits that read back as the positive double `m · 2^e / 2^1074`. -/
def shortest (m e : Nat) : Decimal :=
  let top := order m e
  let found := (List.range 18).findSome? fun (count : Nat) => candidate? m e (top - count)
  strip 20 (found.getD ⟨false, 0, 0⟩)

/-- How digits `d` with exponent `k` are laid out. With the point at `kk` digits from the left:
positional for `-5 < kk ≤ 16`, always with a digit after the point; else one digit before the point,
if there are more, and an exponent, which has a sign if it is negative or `plus` is set. -/
def layout (plus : Bool) (d : Decimal) : String :=
  let ds := digitsOf d.digits
  let n : Int := ds.length
  let kk : Int := n + d.exponent
  if 0 ≤ d.exponent ∧ kk ≤ 16 then
    String.ofList (ds ++ List.replicate d.exponent.toNat '0') ++ ".0"
  else if 0 < kk ∧ kk ≤ 16 then
    String.ofList (ds.take kk.toNat) ++ "." ++ String.ofList (ds.drop kk.toNat)
  else if -5 < kk ∧ kk ≤ 0 then
    "0." ++ String.ofList (List.replicate (-kk).toNat '0' ++ ds)
  else
    let exponent := (if plus && 1 < kk then "+" else "") ++ toString (kk - 1)
    match ds with
    | [c] => String.singleton c ++ "e" ++ exponent
    | c :: cs => String.singleton c ++ "." ++ String.ofList cs ++ "e" ++ exponent
    | [] => "0.0"

def renderFinite (plus negative : Bool) (m e : Nat) : String :=
  let body := if m = 0 then "0.0" else layout plus (shortest m e)
  if negative then "-" ++ body else body

/-- The text of a double, with or without a plus sign before the exponent: an infinity is `inf` or
`-inf`. -/
def render (plus : Bool) : Binary64 → String
  | .finite s m e => renderFinite plus s m e
  | .infinite negative => if negative then "-inf" else "inf"
  | .nan => "NaN"

end Decimal

end PayloadSchema
