/-!
# Tokens of source text

Source text is a list of token trees: names, punctuation characters, literals, and groups in brackets. A
punctuation character knows whether another one follows it at once, so that `::` can be told from `: :`.
A lifetime is an apostrophe joined to the name after it.
-/

namespace PayloadSchema.Source

/-- The brackets of a group. -/
inductive Delimiter where
  | parenthesis
  | bracket
  | brace
deriving DecidableEq, Repr

/-- A literal with the value it stands for. The suffix of a number is kept apart from its digits. -/
inductive Literal where
  | string (value : String)
  /-- Byte strings, C strings, bytes and characters, whose values nothing asks for. -/
  | other
  | integer (value : Int) (suffix : String)
  /-- The text as written, and its digits with point and exponent but without underscores. -/
  | float (text digits suffix : String)
  | bool (value : Bool)
deriving DecidableEq, Repr

/-- A token tree. A raw name keeps its mark `r#`. -/
inductive Token where
  | name (text : String)
  | punct (char : Char) (joint : Bool)
  | literal (value : Literal)
  | group (delimiter : Delimiter) (inner : List Token)
deriving Inhabited

namespace Token

mutual
/-- How many tokens a token tree has, brackets counted once. -/
def count : Token → Nat
  | .group _ inner => 1 + countAll inner
  | _ => 1
/-- How many tokens a list of token trees has. -/
def countAll : List Token → Nat
  | [] => 0
  | t :: ts => count t + countAll ts
end

end Token

/-- The words that are no names unless they are raw. -/
def keywords : List String :=
  ["_", "abstract", "as", "async", "await", "become", "box", "break", "const", "continue", "crate", "do",
   "dyn", "else", "enum", "extern", "false", "final", "fn", "for", "if", "impl", "in", "let", "loop",
   "macro", "match", "mod", "move", "mut", "override", "priv", "pub", "ref", "return", "Self", "self",
   "static", "struct", "super", "trait", "true", "try", "type", "typeof", "unsafe", "unsized", "use",
   "virtual", "where", "while", "yield"]

/-- Whether a word may be a name as it stands. -/
def isName (word : String) : Bool := !keywords.contains word

end PayloadSchema.Source
