import PayloadSchema.Text.IdentifierTable

/-!
# Identifier characters

What a name in source text may start with and go on with: letters, digits and the underscore in ASCII,
and by table beyond.
-/

namespace PayloadSchema.Text

private def inRanges (ranges : List (Nat × Nat)) (n : Nat) : Bool :=
  ranges.any fun r => r.1 ≤ n && n ≤ r.2

/-- A character that may start an identifier. -/
def isIdentifierStart (c : Char) : Bool :=
  if c.toNat < 128 then c.isAlpha || c == '_'
  else inRanges IdentifierTable.start c.toNat

/-- A character that may follow in an identifier. -/
def isIdentifierRest (c : Char) : Bool :=
  if c.toNat < 128 then c.isAlphanum || c == '_'
  else inRanges IdentifierTable.start c.toNat || inRanges IdentifierTable.continueOnly c.toNat

end PayloadSchema.Text
