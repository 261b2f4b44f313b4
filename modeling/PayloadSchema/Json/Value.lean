import PayloadSchema.Number.Decimal
import PayloadSchema.Dictionary

/-!
# JSON values

A number is an integer or a double, and the two never compare equal. The members of an object stand in
the order in which they are written; an object that was read as a free value has them in ascending order
of their names (`Value.ofMembers`).
-/

namespace PayloadSchema.Json

/-- A number: an integer of at most 64 bits, signed or unsigned, or a double. -/
inductive Number where
  | integer (value : Int)
  | real (value : Binary64)
deriving DecidableEq, Repr

/-- Equality of numbers; doubles compare as numbers. -/
def Number.same : Number → Number → Bool
  | .integer a, .integer b => a == b
  | .real a, .real b => a.same b
  | _, _ => false

/-- The number as a double, whatever its kind. -/
def Number.toReal : Number → Binary64
  | .integer n => .ofInt n
  | .real x => x

/-- A JSON value. -/
inductive Value where
  | null
  | bool (value : Bool)
  | number (value : Number)
  | string (value : String)
  | array (elements : List Value)
  | object (members : List (String × Value))
deriving Inhabited

namespace Value

def ofInt (n : Int) : Value := .number (.integer n)

def ofReal (x : Binary64) : Value := .number (.real x)

/-- The free object with the given members: in order of names, and of two with one name the later. -/
def ofMembers (members : List (String × Value)) : Value := .object (Dictionary.ofList members)

mutual
/-- Equality of values, with doubles compared as numbers. -/
def same : Value → Value → Bool
  | .null, .null => true
  | .bool a, .bool b => a == b
  | .number a, .number b => a.same b
  | .string a, .string b => a == b
  | .array a, .array b => sameElements a b
  | .object a, .object b => sameMembers a b
  | _, _ => false
/-- Equality of the elements of two arrays. -/
def sameElements : List Value → List Value → Bool
  | [], [] => true
  | a :: as, b :: bs => same a b && sameElements as bs
  | _, _ => false
/-- Equality of the members of two objects. -/
def sameMembers : List (String × Value) → List (String × Value) → Bool
  | [], [] => true
  | (k, a) :: as, (l, b) :: bs => k == l && same a b && sameMembers as bs
  | _, _ => false
end

end Value

end PayloadSchema.Json
