/-!
# Powers

Powers of two bound words and scale doubles, powers of ten scale decimals.
-/

namespace PayloadSchema

/-- Two to a power: the number of words of so many bits. -/
def twoPow (n : Nat) : Nat := Nat.pow 2 n

/-- Ten to a power: the least number with one digit more than that. -/
def tenPow (n : Nat) : Nat := Nat.pow 10 n

end PayloadSchema
