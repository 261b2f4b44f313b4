import PayloadSchema.Source.Grammar.Expression

/-!
# Statements
-/

namespace PayloadSchema.Source.Grammar

open PayloadSchema.Source.Parser

variable (g : Grammar)

/-- What starts an item among statements, beside a macro definition. -/
def itemStart : Look.Test := fun ts =>
  let brace := Look.group .brace
  let move := Look.word "move"
  let bar := Look.mark "|"
  let function := Look.words ["unsafe", "extern", "fn"]
  Look.words ["pub", "extern", "use", "fn", "mod", "type", "struct", "enum", "trait", "impl", "macro"] ts
    || (Look.word "crate" ts && !Look.second (Look.mark "::") ts)
    || (Look.word "static" ts && (Look.second (Look.word "mut") ts
        || (Look.second Look.name ts
          && !(Look.second (Look.word "async") ts && Look.third (Look.either move bar) ts))))
    || (Look.word "const" ts && !(Look.second brace ts || Look.second (Look.words ["static", "move"]) ts
        || (Look.second (Look.word "async") ts && !Look.third function ts) || Look.second bar ts))
    || (Look.word "unsafe" ts && !Look.second brace ts)
    || (Look.word "async" ts && Look.second function ts)
    || (Look.word "union" ts && Look.second Look.name ts)
    || (Look.word "auto" ts && Look.second (Look.word "trait") ts)
    || (Look.word "default" ts && Look.second (Look.words ["unsafe", "impl"]) ts)

/-- How a statement that starts with a bare path and `!` goes on. -/
inductive MacroStart where
  | none
  /-- A name follows: an item. -/
  | definition
  /-- Braces follow, with nothing after them that would make an expression of it. -/
  | braced
deriving DecidableEq

/-- Looks for a macro at the start of a statement. -/
def macroStart : Parser MacroStart := do
  let found ← attempt (ahead do
    let _ ← barePath
    return (← get).tokens)
  match found with
  | Option.none => return .none
  | some ts =>
    if !Look.mark "!" ts then return .none
    else if Look.second (Look.either Look.name (Look.word "try")) ts then return .definition
    else if Look.second (Look.group .brace) ts
        && !(Look.third (Look.markNot "." [".."]) ts || Look.third (Look.mark "?") ts) then
      return .braced
    else return .none

/-- Whether the tokens taken since a place end in braces. -/
def endsInBrace (before after : List Token) : Bool :=
  match (before.take (before.length - after.length)).getLast? with
  | some (.group .brace _) => true
  | _ => false

/-- A binding of names, perhaps with a block for the case that the pattern does not match. -/
def letStatement : Parser Unit := do
  word "let"
  let _ ← g.pattern
  if ← mark? ":" then
    let _ ← g.type true
  if ← mark? "=" then
    let before := (← get).tokens
    let _ ← g.expr
    let after := (← get).tokens
    if !endsInBrace before after && (← sees (Look.word "else")) then
      word "else"
      g.block
  mark ";"

/-- A macro call in braces as a statement. -/
def macroStatement : Parser Unit := do
  let _ ← barePath
  mark "!"
  let _ ← anyGroup
  let _ ← mark? ";"

/-- An expression as a statement, and whether a semicolon is still wanted after it. -/
def expressionStatement : Parser Bool := do
  let e ← g.statementExpr
  if ← mark? ";" then return false
  else return match e with
    | .block => false
    | .macroCall braced => !braced
    | _ => true

/-- A statement, and whether a semicolon is still wanted after it. -/
def statement : Parser Bool := do
  let (start, tokens) ← ahead do
    let _ ← g.outerAttributes
    let start ← macroStart
    return (start, (← get).tokens)
  if itemStart tokens || start = .definition then
    note [← g.item]
    return false
  else if start = .braced then
    let _ ← g.outerAttributes
    macroStatement
    return false
  else if Look.word "let" tokens then
    let _ ← g.outerAttributes
    g.letStatement
    return false
  else g.expressionStatement

/-- The statements of a block. Only the last may lack its semicolon. -/
def statementsOf : Parser Unit := do
  let _ ← repeating do
    let _ ← repeating do
      if ← mark? ";" then return some () else return none
    if ← atEnd then return none
    let wanting ← g.statement
    if wanting && !(← atEnd) then failure
    return some ()

end PayloadSchema.Source.Grammar
