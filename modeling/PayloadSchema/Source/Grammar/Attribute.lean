import PayloadSchema.Source.Grammar.Basic

/-!
# Attributes

An attribute says a path, alone, with tokens in brackets, or with a value.
-/

namespace PayloadSchema.Source.Grammar

open PayloadSchema.Source.Parser

variable (g : Grammar)

/-- The words that may stand in a bare path although they are keywords. -/
def pathWords : List String := ["self", "super", "Self", "crate"]

def pathWord : Look.Test := Look.either Look.name (Look.words pathWords)

def barePath : Parser MetaPath := do
  let leading ← mark? "::"
  let first ← segment
  let more ← repeating do
    if ← sees (Look.mark "::") then
      mark "::"
      return some (← segment)
    else return none
  return ⟨leading, first :: more⟩
where
  /-- One segment. -/
  segment : Parser String := do
    if ← sees pathWord then anyWord else failure

/-- The value of an attribute: a literal alone, or an expression. -/
def metaValue : Parser Expr := do
  let whole ← attempt (ahead do
    let l ← literal
    if ← atEnd then return l else failure)
  match whole with
  | some _ => return .literal (← literal)
  | none =>
    if (← sees (Look.mark "#")) && (← sees (Look.second (Look.group .bracket))) then failure
    else g.expr

/-- What an attribute says after its path. -/
def metaAfterPath (path : MetaPath) : Parser Meta := do
  if ← sees Look.anyGroup then
    return .list path (← anyGroup).2
  else if ← sees (Look.markNot "=" ["==", "=>"]) then
    mark "="
    return .value path (← g.metaValue)
  else return .path path

def attributeBody : Parser Meta := do
  if ← sees (Look.word "unsafe") then
    let w ← anyWord
    g.metaAfterPath ⟨false, [w]⟩
  else g.metaAfterPath (← barePath)

/-- The attributes before something. -/
def outerAttributes : Parser (List Meta) :=
  repeating do
    if ← sees (Look.mark "#") then
      mark "#"
      return some (← within .bracket g.attributeBody)
    else return none

/-- The attributes inside something, at its start. -/
def innerAttributes : Parser (List Meta) :=
  repeating do
    if (← sees (Look.mark "#")) && (← sees (Look.second (Look.mark "!"))) then
      mark "#"
      mark "!"
      return some (← within .bracket g.attributeBody)
    else return none

/-- A block with attributes at its start. What was met in the head before the block comes after what is met
in these attributes. -/
def attributedBlock (head : List Item := []) : Parser Unit :=
  within .brace do
    let _ ← g.innerAttributes
    note head
    g.statements

end PayloadSchema.Source.Grammar
