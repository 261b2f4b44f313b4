import PayloadSchema.Text.CaseTable

/-!
# Letter case

Which characters are upper or lower case, and what they become when the case changes. A character may
become several. ASCII is decided by comparison, everything else by table.
-/

namespace PayloadSchema.Text

/-- The character with a code point of a table. -/
private def charAt (n : Nat) : Char := Char.ofNat n

/-- An upper-case character, in the sense of the property Uppercase. -/
def isUpper (c : Char) : Bool :=
  if c.toNat < 128 then 'A' ≤ c && c ≤ 'Z'
  else CaseTable.uppercase.any (·.contains c.toNat)

/-- A lower-case character, in the sense of the property Lowercase. -/
def isLower (c : Char) : Bool :=
  if c.toNat < 128 then 'a' ≤ c && c ≤ 'z'
  else CaseTable.lowercase.any (·.contains c.toNat)

/-- The image of a character above ASCII under a mapping, itself if the mapping says nothing. -/
private def mapped (short : List (CaseTable.Run × Int)) (long : List (Nat × List Nat)) (c : Char) :
    List Char :=
  match long.lookup c.toNat with
  | some image => image.map charAt
  | none =>
    match short.find? fun entry => entry.1.contains c.toNat with
    | some entry => [charAt (c.toNat + entry.2).toNat]
    | none => [c]

def lower (c : Char) : List Char :=
  if c.toNat < 128 then [c.toLower] else mapped CaseTable.toLower CaseTable.toLowerLong c

def upper (c : Char) : List Char :=
  if c.toNat < 128 then [c.toUpper] else mapped CaseTable.toUpper CaseTable.toUpperLong c

end PayloadSchema.Text
