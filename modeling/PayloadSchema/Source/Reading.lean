import PayloadSchema.Source.Grammar.Item
import PayloadSchema.Source.Lexer

/-!
# Reading source text

The whole grammar is built level by level: `Grammar.step` gives the parsers whose nested parts are read by
another grammar, and `Grammar.nested` starts from the grammar of nothing. Between two steps down a token is
taken at the latest with the third, so three levels for each token are enough.

* `SourceFile.ofText?` — a file, with a byte order mark and an interpreter line at its start passed over;
* `TypeExpr.ofText?` — a type;
* `Meta.ofText?` — what an attribute says, without its brackets.
-/

namespace PayloadSchema.Source

open PayloadSchema.Source.Parser

namespace Grammar

/-- The grammar whose nested parts another grammar reads. -/
def step (g : Grammar) : Grammar where
  type := g.typeOf
  operand := g.operandOf
  operators := g.operatorsOf
  statementExpr := g.statementExprOf
  pattern := g.patternOf
  statements := g.statementsOf
  item := g.itemOf
  field := g.fieldOf
  bound := g.boundOf
  parameter := g.parameterOf
  useTree := g.useTreeOf
  conditional := g.conditionalOf

/-- The grammar of what is nested at most so deep. -/
def nested (depth : Nat) : Grammar := Nat.repeat step depth empty

/-- The grammar that suffices for some tokens. -/
def forTokens (tokens : List Token) : Grammar := nested (3 * Token.countAll tokens + 8)

end Grammar

/-- The items of a file, after those in its inner attributes. -/
def fileItems (g : Grammar) : Parser (List Item) := do
  let (_, inner) ← collecting g.innerAttributes
  let items ← Grammar.itemsToEnd g.item
  return if inner.isEmpty then items else .value inner :: items

/-- The rest after an interpreter line: `#!` at the start, unless it begins an inner attribute. -/
def skipInterpreterLine : List Char → List Char
  | '#' :: '!' :: rest =>
    if (Lexer.skipSpace rest.length rest).head? = some '[' then '#' :: '!' :: rest
    else Lexer.skipLine rest
  | cs => cs

def SourceFile.ofText? (text : String) : Option SourceFile := do
  let tokens ← Token.ofChars? (skipInterpreterLine (skipMark text.toList))
  return ⟨← (fileItems (Grammar.forTokens tokens)).runAll tokens⟩

def TypeExpr.ofText? (text : String) : Option TypeExpr := do
  let tokens ← Token.ofText? text
  ((Grammar.forTokens tokens).typeOf true).runAll tokens

/-- What an attribute says, from its text. -/
def Meta.ofText? (text : String) : Option Meta := do
  let tokens ← Token.ofText? text
  (Grammar.forTokens tokens).attributeBody.runAll tokens

end PayloadSchema.Source
