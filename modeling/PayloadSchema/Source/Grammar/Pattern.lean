import PayloadSchema.Number.Power
import PayloadSchema.Source.Grammar.Type

/-!
# Patterns
-/

namespace PayloadSchema.Source.Grammar

open PayloadSchema.Source.Parser

variable (g : Grammar)

/-- The mark of a range: `..`, `..=`, or in a pattern also the old `...`. The answer says whether the
upper end may be left out. -/
def rangeMark (old : Bool) : Parser Bool := do
  if ← sees (Look.mark "..=") then
    mark "..="
    return false
  else if ← sees (Look.mark "...") then
    if old then
      mark "..."
      return false
    else failure
  else
    mark ".."
    return true

/-- What ends the range of a pattern before its upper end. -/
def rangeStop : Look.Test := fun ts =>
  Look.nothing ts || Look.anyMark ["|", "=", ",", ";"] ts || Look.markNot ":" ["::"] ts
    || Look.word "if" ts

/-- An end of the range of a pattern, if there is one: a literal, a path or a constant block. -/
def rangeEnd : Parser Bool := do
  if ← sees rangeStop then return false
  else if ← sees Look.literal then
    let _ ← literal
    return true
  else if ← sees (Look.either pathStart (Look.mark "<")) then
    let _ ← g.qualifiedPath true
    return true
  else
    word "const"
    g.attributedBlock
    return true

/-- The rest of a range pattern after its lower end. -/
def rangeAfter : Parser Pattern := do
  let mayBeOpen ← rangeMark true
  if ← g.rangeEnd then return .other
  else if mayBeOpen then return .openRange
  else failure

/-- The name of a member: a name, or a number without a suffix. -/
def memberName : Parser Bool := do
  match ← next with
  | .name t => if isName t then return true else failure
  | .literal (.integer n "") => if n < twoPow 32 then return false else failure
  | _ => failure

/-- A field of a structure pattern. -/
def fieldPattern : Parser Unit := do
  let boxed ← word? "box"
  let byReference ← word? "ref"
  let mutable ← word? "mut"
  let decorated := boxed || byReference || mutable
  let named ← if decorated then do
      let _ ← name
      pure true
    else memberName
  if !named || (!decorated && (← sees (Look.mark ":"))) then
    mark ":"
    let _ ← g.alternatives

/-- The fields of a structure pattern, the last perhaps `..`. -/
def fieldPatterns : Parser Unit := do
  let _ ← repeating do
    if ← atEnd then return none
    let _ ← g.outerAttributes
    if ← sees (Look.mark "..") then
      mark ".."
      return none
    else
      g.fieldPattern
      if !(← atEnd) then mark ","
      return some ()

/-- A pattern that starts with a path: a macro call, a structure, a tuple, a range or the path. -/
def pathPattern : Parser Pattern := do
  let (qualified, path) ← g.qualifiedPath true
  if !qualified && (← sees (Look.markNot "!" ["!="])) && path.isBare then
    mark "!"
    let _ ← anyGroup
    return .other
  else if ← sees (Look.group .brace) then
    within .brace g.fieldPatterns
    return .other
  else if ← sees (Look.group .parenthesis) then
    let _ ← within .parenthesis (commaSeparated g.alternatives)
    return .other
  else if ← sees (Look.mark "..") then g.rangeAfter
  else return .other

def namePattern : Parser Pattern := do
  let _ ← word? "ref"
  let _ ← word? "mut"
  if ← sees (Look.word "self") then word "self"
  else
    let _ ← name
  if ← mark? "@" then
    let _ ← g.pattern
  return .other

/-- Whether what follows a name makes it the start of a path. -/
def startsPathPattern : Look.Test := fun ts =>
  let second := fun ts =>
    Look.anyMark ["::", "!", ".."] ts || Look.group .brace ts || Look.group .parenthesis ts
  (Look.name ts && Look.second second ts)
    || (Look.word "self" ts && Look.second (Look.mark "::") ts)
    || Look.anyMark ["::", "<"] ts || Look.words ["Self", "super", "crate"] ts

/-- A list in parentheses: a single pattern that is not `..` is only grouped. -/
def parenthesizedPattern : Parser Pattern := do
  let _ ← commaSeparated g.alternatives
  return .other

/-- A list in brackets, in which a range has both its ends. -/
def slicePattern : Parser Pattern := do
  let _ ← commaSeparated do
    match ← g.alternatives with
    | .openRange => failure
    | _ => return ()
  return .other

/-- A pattern without alternatives. -/
def patternOf : Parser Pattern := do
  if ← sees startsPathPattern then g.pathPattern
  else if ← sees (Look.word "_") then
    word "_"
    return .other
  else if ← sees (Look.word "box") then
    word "box"
    let _ ← sealed g.pattern
    return .verbatim
  else if ← sees (fun ts => Look.mark "-" ts || Look.literal ts || Look.word "const" ts) then
    if ← g.rangeEnd then
      if ← sees (Look.mark "..") then g.rangeAfter else return .other
    else failure
  else if ← sees (fun ts => Look.words ["ref", "mut", "self"] ts || Look.name ts) then g.namePattern
  else if ← sees (Look.mark "&") then
    mark "&"
    let _ ← word? "mut"
    let _ ← g.pattern
    return .other
  else if ← sees (Look.group .parenthesis) then within .parenthesis g.parenthesizedPattern
  else if ← sees (Look.group .bracket) then within .bracket g.slicePattern
  else if ← sees (Look.markNot ".." ["..."]) then
    let mayBeOpen ← rangeMark false
    if ← g.rangeEnd then return .openRange
    else if mayBeOpen then return .rest
    else failure
  else failure

end PayloadSchema.Source.Grammar
