import PayloadSchema.Source.Parser

/-!
# The grammar, by depth of nesting

The parsers of a language call each other without end: types hold expressions, expressions blocks, blocks
items. `Grammar` lists those that are called from inside others. Each parser of this folder takes the
grammar for what is nested inside it as an argument, so none of them is recursive, and the whole grammar is
built level by level (`PayloadSchema.Source.Reading`).
-/

namespace PayloadSchema.Source

/-- Where an expression stops: how tightly an operator binds, from the loosest to the tightest. -/
inductive Binding where
  | lowest
  | assign
  | range
  | or
  | and
  | let_
  | compare
  | bitOr
  | bitXor
  | bitAnd
  | shift
  | sum
  | product
  | cast
deriving DecidableEq, Repr

def Binding.rank : Binding → Nat
  | .lowest => 0
  | .assign => 1
  | .range => 2
  | .or => 3
  | .and => 4
  | .let_ => 5
  | .compare => 6
  | .bitOr => 7
  | .bitXor => 8
  | .bitAnd => 9
  | .shift => 10
  | .sum => 11
  | .product => 12
  | .cast => 13

/-- A pattern, as far as its kind matters. -/
inductive Pattern where
  /-- The rest of a tuple or list: `..` alone. -/
  | rest
  /-- A range without one of its ends. -/
  | openRange
  /-- What is kept as its tokens. -/
  | verbatim
  | other
deriving DecidableEq, Repr

/-- A bound of a type. -/
inductive Bound where
  | lifetime
  | trait (path : Path TypeExpr)
  /-- The lifetimes that an opaque type captures. -/
  | captures
  /-- A trait under a condition on constness. -/
  | conditional

/-- Whether a bound is by a trait. -/
def Bound.isTrait : Bound → Bool
  | .trait _ => true
  | .conditional => true
  | _ => false

/-- Whether a bound is kept as more than its tokens. -/
def Bound.isParsed : Bound → Bool
  | .conditional => false
  | _ => true

/-- What may stand in a list of bounds beside lifetimes and plain traits. -/
structure BoundRules where
  captures : Bool := false
  constness : Bool := false

/-- The parsers for what is nested. -/
structure Grammar where
  /-- A type; the flag says whether bounds may follow it with `+`. -/
  type : Bool → Parser TypeExpr
  /-- An operand with its unary operators; the flag says whether a brace after a path starts a
  structure. -/
  operand : Bool → Parser Expr
  /-- The operators after an operand that bind at least so tightly. -/
  operators : Bool → Expr → Binding → Parser Expr
  /-- An expression where a statement may end. -/
  statementExpr : Parser Expr
  /-- A pattern without alternatives. -/
  pattern : Parser Pattern
  /-- The statements of a block. -/
  statements : Parser Unit
  item : Parser Item
  /-- A field with a name. -/
  field : Parser FieldDecl
  bound : BoundRules → Parser Bound
  /-- A generic parameter; a type has a name. -/
  parameter : Parser (Option String)
  /-- The tree of an import. The flag says whether the paths of a group may start at the root; a tree with
  one that does has no value. -/
  useTree : Bool → Parser (Option UseTree)
  /-- A chain of conditional blocks from its `if` on. -/
  conditional : Parser Unit

/-- The grammar of what may not be nested any deeper: nothing. -/
def Grammar.empty : Grammar where
  type _ := failure
  operand _ := failure
  operators _ _ _ := failure
  statementExpr := failure
  pattern := failure
  statements := failure
  item := failure
  field := failure
  bound _ := failure
  parameter := failure
  useTree _ := failure
  conditional := failure

namespace Grammar

variable (g : Grammar)

def expr (structs : Bool := true) : Parser Expr := do
  g.operators structs (← g.operand structs) .lowest

def block : Parser Unit := Parser.within .brace g.statements

/-- A pattern with alternatives, perhaps after a leading bar. -/
def alternatives : Parser Pattern := do
  let leading ← Parser.mark? "|"
  let first ← g.pattern
  if leading || (← Parser.sees bar) then
    let _ ← Parser.repeating do
      if ← Parser.sees bar then
        Parser.mark "|"
        return some (← g.pattern)
      else return none
    return .other
  else return first
where
  /-- A bar that is no longer mark. -/
  bar : Look.Test := Look.markNot "|" ["||", "|="]

end Grammar

end PayloadSchema.Source
