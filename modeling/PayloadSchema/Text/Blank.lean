/-!
# Blank characters

The characters with the property White_Space, and text without blanks at its ends.
-/

namespace PayloadSchema.Text

/-- White space: the ASCII controls from tab to carriage return, the space, and the blanks of other
blocks. -/
def isBlank (c : Char) : Bool :=
  let n := c.toNat
  (9 ≤ n && n ≤ 13) || n == 0x20 || n == 0x85 || n == 0xA0 || n == 0x1680
    || (0x2000 ≤ n && n ≤ 0x200A) || n == 0x2028 || n == 0x2029 || n == 0x202F || n == 0x205F
    || n == 0x3000

/-- A list of characters without the blanks at its end. -/
def trimEnd (cs : List Char) : List Char := (cs.reverse.dropWhile isBlank).reverse

/-- A list of characters without the blanks at its ends. -/
def trimChars (cs : List Char) : List Char := trimEnd (cs.dropWhile isBlank)

/-- A text without the blanks at its ends. -/
def trim (s : String) : String := String.ofList (trimChars s.toList)

/-- A text that has anything but blanks, without the blanks at its ends. -/
def nonBlank? (s : String) : Option String :=
  let t := trim s
  if t = "" then none else some t

end PayloadSchema.Text
