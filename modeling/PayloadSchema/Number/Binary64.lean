import PayloadSchema.Number.Power

/-!
# Double-precision numbers in exact arithmetic

A finite double is a sign, a significand and a power of two. Every operation is exact arithmetic on
natural numbers followed by one rounding (`ofRatio`), to the nearest double and, on a tie, to the
even significand. So a bound in a schema is a plain value that can be compared and computed with.

* `ofRatio` — the double nearest to a quotient of naturals;
* `mul`, `div` — one rounding of the exact result;
* `same` — equality of numbers: the two zeros are equal, not-a-number differs from itself;
* `toWord` — the integer part, kept within 64 unsigned bits.
-/

namespace PayloadSchema

/-- A double: `± significand · 2 ^ (scale - 1074)`, an infinity, or not a number. -/
inductive Binary64 where
  | finite (negative : Bool) (significand scale : Nat)
  | infinite (negative : Bool)
  | nan
deriving DecidableEq, Repr, Inhabited

namespace Binary64

/-- `num / den` to the nearest integer; a tie goes to the even neighbour. -/
def roundDiv (num den : Nat) : Nat :=
  let whole := num / den
  let rest := num % den
  if 2 * rest < den ∨ (2 * rest = den ∧ whole % 2 = 0) then whole else whole + 1

/-- The double nearest to `units / den` times the least positive one, for a positive `den`. The scale is the
least at which the significand has at most 53 bits; a significand that rounds up to 54 bits moves one scale
on. -/
def ofUnits (negative : Bool) (units den : Nat) : Binary64 :=
  let scale := Nat.log2 (units / den) - 52
  let rounded := roundDiv units (den * twoPow scale)
  let (significand, scale) := if rounded = twoPow 53 then (twoPow 52, scale + 1) else (rounded, scale)
  if scale > 2045 then infinite negative else finite negative significand scale

/-- The double nearest to `num / den`, for a positive `den`. -/
def ofRatio (negative : Bool) (num den : Nat) : Binary64 := ofUnits negative (num * twoPow 1074) den

/-- The double nearest to a natural number. -/
def ofNat (n : Nat) : Binary64 := ofRatio false n 1

/-- The double nearest to an integer. -/
def ofInt : Int → Binary64
  | .ofNat n => ofNat n
  | .negSucc n => ofRatio true (n + 1) 1

/-- Positive zero. -/
def zero : Binary64 := finite false 0 0

/-- The sign turned round; not-a-number has no sign. -/
def neg : Binary64 → Binary64
  | finite s m e => finite (!s) m e
  | infinite s => infinite (!s)
  | nan => nan

/-- Zero of either sign. -/
def isZero : Binary64 → Bool
  | finite _ m _ => m == 0
  | _ => false

/-- Neither an infinity nor not-a-number. -/
def isFinite : Binary64 → Bool
  | finite .. => true
  | _ => false

/-- Less than zero: negative zero is not. -/
def isBelowZero : Binary64 → Bool
  | finite s m _ => s && m != 0
  | infinite s => s
  | nan => false

/-- Equality of numbers. -/
def same : Binary64 → Binary64 → Bool
  | finite s m e, finite s' m' e' => (m == 0 && m' == 0) || (s == s' && m == m' && e == e')
  | infinite s, infinite s' => s == s'
  | _, _ => false

/-- The product, rounded once. -/
def mul : Binary64 → Binary64 → Binary64
  | nan, _ => nan
  | _, nan => nan
  | finite s m e, finite s' m' e' => ofRatio (s != s') (m * m' * twoPow (e + e')) (twoPow 2148)
  | infinite s, finite s' m _ => if m == 0 then nan else infinite (s != s')
  | finite s m _, infinite s' => if m == 0 then nan else infinite (s != s')
  | infinite s, infinite s' => infinite (s != s')

/-- The quotient, rounded once. -/
def div : Binary64 → Binary64 → Binary64
  | nan, _ => nan
  | _, nan => nan
  | finite s m e, finite s' m' e' =>
    if m' == 0 then (if m == 0 then nan else infinite (s != s'))
    else ofRatio (s != s') (m * twoPow e) (m' * twoPow e')
  | infinite s, finite s' _ _ => infinite (s != s')
  | finite s _ _, infinite s' => finite (s != s') 0 0
  | infinite _, infinite _ => nan

/-- The integer part as an unsigned 64-bit quantity: what is too small becomes 0, what is too
large the greatest one, and not-a-number 0. -/
def toWord : Binary64 → Nat
  | finite true _ _ => 0
  | finite false m e => min (m * twoPow e / twoPow 1074) (twoPow 64 - 1)
  | infinite negative => if negative then 0 else twoPow 64 - 1
  | nan => 0

end Binary64

end PayloadSchema
