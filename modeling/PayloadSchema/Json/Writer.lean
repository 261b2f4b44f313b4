import PayloadSchema.Json.Value

/-!
# Writing JSON

One member or element a line, two spaces for each level, `[]` and `\x7b\x7d` for what is empty. A double
has its shortest digits (`Decimal.render`), with a sign before every exponent; JSON has no text for an
infinity or not-a-number, which become `null`.
-/

namespace PayloadSchema.Json

/-- A hexadecimal digit, in lower case. -/
def hexDigit (n : Nat) : Char := (Nat.toDigits 16 n).headD '0'

/-- The escape of a character inside a string: the quote, the backslash and the controls have one. -/
def escapeChar (c : Char) : List Char :=
  if c = '\"' then ['\\', '\"']
  else if c = '\\' then ['\\', '\\']
  else if c = '\n' then ['\\', 'n']
  else if c = '\r' then ['\\', 'r']
  else if c = '\t' then ['\\', 't']
  else if c.toNat = 8 then ['\\', 'b']
  else if c.toNat = 12 then ['\\', 'f']
  else if c.toNat < 32 then ['\\', 'u', '0', '0', hexDigit (c.toNat / 16), hexDigit (c.toNat % 16)]
  else [c]

def quote (s : String) : String :=
  "\"" ++ String.ofList (s.toList.flatMap escapeChar) ++ "\""

def Number.render : Number → String
  | .integer n => toString n
  | .real x => if x.isFinite then Decimal.render true x else "null"

/-- A new line with the indentation of a level. -/
def newline (level : Nat) : String := String.ofList ('\n' :: List.replicate (2 * level) ' ')

namespace Value

mutual
/-- A value at a level of indentation. -/
def renderAt (level : Nat) : Value → String
  | .null => "null"
  | .bool b => if b then "true" else "false"
  | .number n => n.render
  | .string s => quote s
  | .array [] => "[]"
  | .array (v :: vs) =>
    "[" ++ newline (level + 1) ++ renderAt (level + 1) v ++ renderElements level vs
      ++ newline level ++ "]"
  | .object [] => "\x7b\x7d"
  | .object ((k, v) :: ms) =>
    "\x7b" ++ newline (level + 1) ++ quote k ++ ": " ++ renderAt (level + 1) v ++ renderMembers level ms
      ++ newline level ++ "\x7d"
/-- The elements after the first. -/
def renderElements (level : Nat) : List Value → String
  | [] => ""
  | v :: vs => "," ++ newline (level + 1) ++ renderAt (level + 1) v ++ renderElements level vs
def renderMembers (level : Nat) : List (String × Value) → String
  | [] => ""
  | (k, v) :: ms =>
    "," ++ newline (level + 1) ++ quote k ++ ": " ++ renderAt (level + 1) v ++ renderMembers level ms
end

def render (v : Value) : String := renderAt 0 v

end Value

end PayloadSchema.Json
