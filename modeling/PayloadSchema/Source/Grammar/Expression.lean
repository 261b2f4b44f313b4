import PayloadSchema.Source.Grammar.Pattern

/-!
# Expressions

An expression is an operand with operators after it. An operand is an atom with calls, fields and indices
after it, and unary operators before it. Where a brace may not start a structure, as in the condition of an
`if`, the flag `structs` is off.
-/

namespace PayloadSchema.Source.Grammar

open PayloadSchema.Source.Parser

variable (g : Grammar)

/-! ## Operators -/

/-- The binary operators with their bindings; a longer one stands before those that start it. -/
def binaryOperators : List (String × Binding) :=
  [("+=", .assign), ("-=", .assign), ("*=", .assign), ("/=", .assign), ("%=", .assign),
   ("^=", .assign), ("&=", .assign), ("|=", .assign), ("<<=", .assign), (">>=", .assign),
   ("&&", .and), ("||", .or), ("<<", .shift), (">>", .shift), ("==", .compare), ("<=", .compare),
   ("!=", .compare), (">=", .compare), ("+", .sum), ("-", .sum), ("*", .product), ("/", .product),
   ("%", .product), ("^", .bitXor), ("&", .bitAnd), ("|", .bitOr), ("<", .compare), (">", .compare)]

def operatorAhead (ts : List Token) : Option (String × Binding) :=
  binaryOperators.find? fun entry => Look.mark entry.1 ts

/-- How tightly what is ahead binds, if it is an operator. -/
def bindingAhead (ts : List Token) : Binding :=
  match operatorAhead ts with
  | some (_, binding) => binding
  | none =>
    if Look.markNot "=" ["=>"] ts then .assign
    else if Look.mark ".." ts then .range
    else if Look.word "as" ts then .cast
    else .lowest

/-- The operand after an operator, with the operators after it that bind more tightly. An assignment
takes another one after it. -/
def rightOperand (structs : Bool) (binding : Binding) : Parser Expr := do
  let first ← g.operand structs
  fun c => go (c.tokens.length + 1) first c
where
  /-- At most so many operators. -/
  go : Nat → Expr → Cursor → Option (Expr × Cursor)
    | 0, _, _ => none
    | bound + 1, e, c => do
      let ahead := bindingAhead c.tokens
      if binding.rank < ahead.rank ∨ (ahead = binding ∧ binding = .assign) then
        let (e, c') ← g.operators structs e ahead c
        if c'.tokens.length = c.tokens.length then some (e, c') else go bound e c'
      else some (e, c)

/-- What may follow a range without an upper end. -/
def rangeEnds (structs : Bool) : Look.Test := fun ts =>
  Look.nothing ts || Look.anyMark [",", ";", "?", "=>"] ts || Look.markNot "." [".."] ts
    || (!structs && Look.group .brace ts)
    || Look.anyMark ["=", "+", "/", "%", "^", ">", "<=", "!=", "-=", "*=", "&=", "|=", "<<="] ts
    || Look.word "as" ts

/-- The upper end of a range, if it has one. -/
def rangeUpper (structs : Bool) : Parser Unit := do
  let mayBeOpen ← rangeMark false
  if !(mayBeOpen && (← sees (rangeEnds structs))) then
    let _ ← g.rightOperand structs .range

/-- What may not follow a cast. -/
def afterCast : Look.Test := fun ts =>
  Look.markNot "." [".."] ts || Look.mark "?" ts || Look.group .bracket ts || Look.group .parenthesis ts

/-- Whether an expression is a range. -/
def isRange : Expr → Bool
  | .range => true
  | _ => false

/-- Whether an expression is a comparison. -/
def isComparison : Expr → Bool
  | .comparison => true
  | _ => false

/-- One operator after an operand, with its right side, if one is ahead that binds tightly enough.
Comparisons do not chain, and nothing but a range goes before a range. -/
def operatorStep (structs : Bool) (least : Binding) (e : Expr) : Parser (Option Expr) := do
  if isRange e then return none
  match operatorAhead (← get).tokens with
  | some (m, binding) =>
    if binding.rank < least.rank then return none
    if binding = .compare ∧ isComparison e then failure
    mark m
    let _ ← g.rightOperand structs binding
    return some (if binding = .compare then .comparison else .other)
  | none =>
    if Binding.assign.rank ≥ least.rank && (← sees (Look.markNot "=" ["=>"])) then
      mark "="
      let _ ← g.rightOperand structs .assign
      return some .other
    else if Binding.range.rank ≥ least.rank && (← sees (Look.mark "..")) then
      g.rangeUpper structs
      return some .range
    else if Binding.cast.rank ≥ least.rank && (← sees (Look.word "as")) then
      word "as"
      let _ ← g.type false
      if ← sees afterCast then failure
      return some .other
    else return none

/-- The operators after an operand that bind at least so tightly. -/
def operatorsOf (structs : Bool) (e : Expr) (least : Binding) : Parser Expr := fun c =>
  go (c.tokens.length + 1) e c
where
  /-- At most so many operators. -/
  go : Nat → Expr → Cursor → Option (Expr × Cursor)
    | 0, _, _ => none
    | bound + 1, e, c => do
      match ← g.operatorStep structs least e c with
      | (none, c) => some (e, c)
      | (some e, c) => go bound e c

/-! ## After an atom -/

/-- The digits of a tuple index. -/
def isIndex (part : List Char) : Bool :=
  part.head?.any Char.isDigit && part.all (fun c => c.isDigit || c == '_')
    && (part.filter Char.isDigit).foldl (fun n c => 10 * n + (c.toNat - '0'.toNat)) 0 < twoPow 32

/-- The parts of a text between points. -/
def splitPoints : List Char → List (List Char)
  | [] => [[]]
  | c :: cs =>
    match splitPoints cs with
    | part :: parts => if c = '.' then [] :: part :: parts else (c :: part) :: parts
    | [] => [[c]]

/-- A member by its name or number, with the arguments of a call. -/
def namedMember : Parser Unit := do
  if ← word? "await" then return ()
  let named ← memberName
  let generic := named && (← sees (Look.mark "::"))
  if generic then
    let _ ← g.angleArguments
  if named && (generic || (← sees (Look.group .parenthesis))) then
    let _ ← within .parenthesis (commaSeparated g.expr)

/-- A field, a method call or a wait, after the point. A number with a point in it is two indices; one
that ends in a point is an index with another field to follow, which is to be read at once. -/
def member : Parser Unit := do
  match (← get).tokens with
  | .literal (.float text _ suffix) :: _ =>
    let _ ← next
    if suffix ≠ "" then failure
    let cs := text.toList
    let trailing := cs.getLast? == some '.'
    let parts := splitPoints (if trailing then cs.dropLast else cs)
    if !parts.all isIndex then failure
    if trailing then g.namedMember
  | _ => g.namedMember

/-- One step after an atom: a call, a member, an index or a question mark. -/
def trailerStep (e : Expr) : Parser (Option Expr) := do
  if ← sees (Look.group .parenthesis) then
    let _ ← within .parenthesis (commaSeparated g.expr)
    return some .other
  else if (← sees (Look.markNot "." [".."])) && !isRange e then
    mark "."
    g.member
    return some .other
  else if ← sees (Look.group .bracket) then
    let _ ← within .bracket g.expr
    return some .other
  else if (← sees (Look.mark "?")) && !isRange e then
    mark "?"
    return some .other
  else return none

/-- All steps after an atom. -/
def trailers (e : Expr) : Parser Expr := fun c => go (c.tokens.length + 1) e c
where
  /-- At most so many steps. -/
  go : Nat → Expr → Cursor → Option (Expr × Cursor)
    | 0, _, _ => none
    | bound + 1, e, c => do
      match ← g.trailerStep e c with
      | (none, c) => some (e, c)
      | (some e, c) => go bound e c

/-! ## Atoms -/

/-- The fields of a structure expression, the last perhaps `..` with a base. -/
def structureFields : Parser Unit := do
  let _ ← repeating do
    if ← atEnd then return none
    if ← sees (Look.mark "..") then
      mark ".."
      if !(← atEnd) then
        let _ ← g.expr
      return none
    else
      let _ ← g.outerAttributes
      let named ← memberName
      if !named || (← sees (Look.mark ":")) then
        mark ":"
        let _ ← g.expr
      if !(← atEnd) then mark ","
      return some ()

/-- An expression that starts with a path: a macro call, a structure or the path. -/
def pathExpression (structs : Bool) : Parser Expr := do
  let (qualified, path) ← g.qualifiedPath true
  if !qualified && (← sees (Look.markNot "!" ["!="])) && path.isBare then
    mark "!"
    let (d, _) ← anyGroup
    return .macroCall (d == .brace)
  else if structs && (← sees (Look.group .brace)) then
    within .brace g.structureFields
    return .other
  else return .other

/-- The inside of parentheses: nothing, one expression, or several with commas. -/
def parenthesizedExpression : Parser Expr := do
  if ← atEnd then return .other
  let first ← g.expr
  if ← atEnd then return .parenthesized first
  mark ","
  let _ ← commaSeparated g.expr
  return .other

/-- The inside of brackets: expressions with commas, or one with a count. -/
def arrayExpression : Parser Expr := do
  if ← atEnd then return .other
  let _ ← g.expr
  if ← atEnd then return .other
  else if ← sees (Look.mark ",") then
    mark ","
    let _ ← commaSeparated g.expr
    return .other
  else
    mark ";"
    let _ ← g.expr
    return .other

/-- An argument of a closure. A pattern that is kept as its tokens has no attributes, unless it has a type. -/
def closureArgument : Parser Unit := do
  let (_, before) ← collecting g.outerAttributes
  let (pattern, inner) ← collecting g.pattern
  let typed ← sees (Look.mark ":")
  if typed || pattern != .verbatim then note before
  note inner
  if ← mark? ":" then
    let _ ← g.type true

/-- A closure. With a result type its body is a block. -/
def closure (structs : Bool) : Parser Expr := do
  let _ ← g.ranked
  let _ ← word? "const"
  let _ ← word? "static"
  let _ ← word? "async"
  let _ ← word? "move"
  mark "|"
  let _ ← separated (Look.mark "|") (mark ",") g.closureArgument
  mark "|"
  if ← sees (Look.mark "->") then
    mark "->"
    let _ ← g.type true
    g.block
  else
    let _ ← g.expr structs
  return .other

def letExpression (structs : Bool) : Parser Expr := do
  word "let"
  let _ ← g.alternatives
  mark "="
  let e ← g.operand structs
  let _ ← g.operators structs e .compare
  return .other

/-- What may start an expression. -/
def expressionStart : Look.Test := fun ts =>
  Look.anyWord ts || Look.anyGroup ts || Look.literal ts
    || Look.markNot "!" ["!="] ts || Look.markNot "-" ["-=", "->"] ts || Look.markNot "*" ["*="] ts
    || Look.markNot "|" ["|="] ts || Look.markNot "&" ["&="] ts || Look.mark ".." ts
    || Look.markNot "<" ["<=", "<<="] ts || Look.mark "::" ts || Look.lifetime ts || Look.mark "#" ts

/-- A jump out of a loop, perhaps with a label and a value. A label before a colon is not one. -/
def breakExpression (structs : Bool) : Parser Expr := do
  word "break"
  if ← sees Look.lifetime then
    lifetime
    if ← sees (Look.mark ":") then failure
  if (← sees expressionStart) && (structs || !(← sees (Look.group .brace))) then
    let _ ← g.expr structs
  return .other

/-- An arm of a match. An arm that ends in no block needs a comma, if it is not the last. -/
def arm : Parser Unit := do
  let _ ← g.outerAttributes
  let _ ← g.alternatives
  if ← word? "if" then
    let _ ← g.expr
  mark "=>"
  match ← g.statementExpr with
  | .block =>
    let _ ← mark? ","
  | _ => if !(← atEnd) then mark ","

/-- The arms of a match to the end, after what was met in its head. -/
def arms (head : List Item) : Parser Unit := do
  let _ ← g.innerAttributes
  note head
  let _ ← repeating do
    if ← atEnd then return none
    g.arm
    return some ()

/-- A chain of conditional blocks. -/
def conditionalOf : Parser Unit := do
  let _ ← g.outerAttributes
  word "if"
  let _ ← g.expr false
  g.block
  if ← word? "else" then
    if ← sees (Look.word "if") then g.conditional else g.block

/-- What starts a higher-ranked closure instead of a loop. -/
def startsRanked : Look.Test := fun ts =>
  Look.word "for" ts && Look.second (Look.mark "<") ts
    && Look.third (fun ts => Look.lifetime ts || Look.mark ">" ts) ts

def loop : Parser Expr := do
  if ← sees (Look.word "while") then
    word "while"
    let (_, head) ← collecting (g.expr false)
    g.attributedBlock head
  else if ← sees (Look.word "for") then
    word "for"
    let (_, head) ← collecting do
      let _ ← g.alternatives
      word "in"
      g.expr false
    g.attributedBlock head
  else
    word "loop"
    g.attributedBlock
  return .block

/-- A loop or a block after a label. -/
def labeled : Parser Expr := do
  lifetime
  mark ":"
  if ← sees (Look.group .brace) then
    g.attributedBlock
    return .block
  else g.loop

/-- An expression that ends in a block and may stand as a statement, if one is ahead. -/
def blockLike : Parser (Option Expr) := do
  let brace := Look.group .brace
  if ← sees (Look.word "if") then
    g.conditionalOf
    return some .block
  else if ← sees (fun ts => Look.words ["while", "loop"] ts
      || (Look.word "for" ts && !startsRanked ts)) then
    return some (← g.loop)
  else if ← sees (Look.word "match") then
    word "match"
    let (_, head) ← collecting (g.expr false)
    within .brace (g.arms head)
    return some .block
  else if ← sees (fun ts => Look.word "try" ts && Look.second brace ts) then
    word "try"
    g.block
    return some .block
  else if ← sees (Look.word "unsafe") then
    word "unsafe"
    g.attributedBlock
    return some .block
  else if ← sees (fun ts => Look.word "const" ts && Look.second brace ts) then
    word "const"
    g.attributedBlock
    return some .block
  else if ← sees brace then
    g.attributedBlock
    return some .block
  else if ← sees Look.lifetime then return some (← g.labeled)
  else return none

/-- An atom that is not block-like. -/
def plainAtom (structs : Bool) : Parser Expr := do
  let brace := Look.group .brace
  let bar := Look.mark "|"
  let move := Look.word "move"
  if ← sees Look.literal then return .literal (← literal)
  else if ← sees (fun ts => Look.word "async" ts
      && (Look.second brace ts || (Look.second move ts && Look.third brace ts))) then
    word "async"
    let _ ← word? "move"
    g.block
    return .other
  else if ← sees (fun ts => bar ts || move ts || startsRanked ts
      || (Look.word "const" ts && !Look.second brace ts) || Look.word "static" ts
      || (Look.word "async" ts && Look.second (Look.either bar move) ts)) then g.closure structs
  else if ← sees (fun ts => Look.word "builtin" ts && Look.second (Look.mark "#") ts) then
    word "builtin"
    mark "#"
    let _ ← anyWord
    skipGroup .parenthesis
    return .verbatim
  else if ← sees (fun ts => pathStart ts || Look.mark "<" ts
      || (Look.word "try" ts && Look.second (Look.anyMark ["!", "::"]) ts)) then
    g.pathExpression structs
  else if ← sees (Look.group .parenthesis) then within .parenthesis g.parenthesizedExpression
  else if ← sees (Look.word "break") then g.breakExpression structs
  else if ← sees (Look.word "continue") then
    word "continue"
    let _ ← when? Look.lifetime lifetime
    return .other
  else if ← sees (Look.word "return") then
    word "return"
    if ← sees expressionStart then
      let _ ← g.expr
    return .other
  else if ← sees (Look.word "become") then
    word "become"
    let _ ← g.expr
    return .verbatim
  else if ← sees (Look.group .bracket) then within .bracket g.arrayExpression
  else if ← sees (Look.word "let") then g.letExpression structs
  else if ← sees (Look.word "yield") then
    word "yield"
    if !(← sees (Look.either Look.nothing (Look.anyMark [",", ";"]))) then
      let _ ← g.expr
    return .other
  else if ← sees (Look.mark "..") then
    g.rangeUpper structs
    return .range
  else if ← sees (Look.word "_") then
    word "_"
    return .other
  else failure

def atom (structs : Bool) : Parser Expr := do
  match ← g.blockLike with
  | some e => return e
  | none => g.plainAtom structs

/-- Whether an expression is kept as more than its tokens. -/
def isParsed : Expr → Bool
  | .verbatim => false
  | _ => true

/-- An expression after its attributes. -/
def attributed (p : Parser Expr) : Parser Expr := countingIf isParsed do
  let _ ← g.outerAttributes
  p

/-- An operand with its unary operators, attributes before it, and the steps after its atom. -/
def operandOf (structs : Bool) : Parser Expr := g.attributed do
  if ← sees (Look.mark "&") then
    mark "&"
    let raw := Look.word "raw"
    if ← sees (fun ts => raw ts && Look.second (Look.words ["mut", "const"]) ts) then
      word "raw"
      let _ ← anyWord
    else
      let _ ← word? "mut"
    let _ ← g.operand structs
    return .other
  else if ← sees (Look.mark "-") then
    mark "-"
    return .negated (← g.operand structs)
  else if ← sees (Look.anyMark ["*", "!"]) then
    let _ ← next
    let _ ← g.operand structs
    return .other
  else g.trailers (← g.atom structs)

/-- An expression where a statement may end: one that ends in a block goes on only with a point or a
question mark. -/
def statementExprOf : Parser Expr := do
  let first ← g.attributed do
    match ← g.blockLike with
    | some e =>
      if ← sees (fun ts => Look.markNot "." [".."] ts || Look.mark "?" ts) then g.trailers e else return e
    | none => g.operandOf true
  match first with
  | .block => return first
  | _ => g.operators true first .lowest

end PayloadSchema.Source.Grammar
