import PayloadSchema.Yaml.Scalar

/-!
# Tokens of YAML

The structure of a text as a list of tokens. Blocks are marked by their indentation in the text and by
tokens for their start and end here.
-/

namespace PayloadSchema.Yaml

/-- A token. -/
inductive Token where
  /-- The directive that gives the version. -/
  | version (major minor : Nat)
  /-- The directive that gives a handle of tags its meaning. -/
  | handle (name meaning : String)
  | documentStart
  | documentEnd
  | blockSequence
  | blockMapping
  | blockEnd
  | openBracket
  | closeBracket
  | openBrace
  | closeBrace
  /-- The mark of an element in a block. -/
  | dash
  | comma
  /-- A key follows. -/
  | key
  /-- A value follows. -/
  | value
  | aliasOf (name : String)
  | anchor (name : String)
  /-- A tag; without a handle the rest is the whole tag. -/
  | tag (handle rest : String)
  | scalar (text : String) (style : ScalarStyle)
deriving DecidableEq, Repr, Inhabited

end PayloadSchema.Yaml
