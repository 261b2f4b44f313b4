import PayloadSchema.Source.Grammar.Attribute

/-!
# Types, paths and bounds

A path of a type takes its arguments in angle brackets; arguments in parentheses belong to bounds, so
`dyn Fn(A) -> B` is a type and `Fn(A) -> B` is none.
-/

namespace PayloadSchema.Source.Grammar

open PayloadSchema.Source.Parser

variable (g : Grammar)

/-! ## Paths -/

/-- A constant among generic arguments: a literal, a name or a block. -/
def constArgument : Parser Unit := do
  if ← sees Look.literal then
    let _ ← literal
  else if ← sees Look.name then
    let _ ← name
  else g.attributedBlock

/-- A generic argument: a type counts, the others do not. -/
def genericArgument : Parser (Option TypeExpr) := do
  if (← sees Look.lifetime) && !(← sees (Look.second (Look.mark "+"))) then
    lifetime
    return none
  else if ← sees constant then
    g.constArgument
    return none
  else
    let type ← g.type true
    let simple := match type with
      | .path false ⟨false, [segment]⟩ => segment.style != .parenthesized
      | _ => false
    if simple && (← mark? "=") then
      if ← sees constant then g.constArgument
      else
        let _ ← g.type true
      return none
    else if simple && (← mark? ":") then
      let _ ← joined (Look.anyMark [",", ">"]) "+" (g.bound { constness := true })
      return none
    else return some type
where
  /-- What starts a constant. -/
  constant : Look.Test := Look.either Look.literal (Look.group .brace)

/-- Arguments in angle brackets, perhaps after a path mark. -/
def angleArguments : Parser (List TypeExpr) := do
  let _ ← mark? "::"
  mark "<"
  let arguments ← separated (Look.mark ">") (mark ",") g.genericArgument
  mark ">"
  return arguments.filterMap id

/-- A segment of a path. In an expression the angle brackets need a path mark before them. -/
def segment (inExpression : Bool) : Parser (Segment TypeExpr) := do
  if ← sees (Look.words ["super", "self", "crate", "try"]) then
    return { name := ← anyWord }
  else
    let name ← if ← sees (Look.word "Self") then anyWord else Parser.name
    let direct := !inExpression && (← sees (Look.markNot "<" ["<=", "<<="]))
    let marked := (← sees (Look.mark "::")) && (← sees (Look.third (Look.mark "<")))
    if direct || marked then
      return { name, style := .angled, types := ← g.angleArguments }
    else return { name }

/-- The segments of a path after the first; a parenthesis after the mark does not belong to it. -/
def moreSegments (inExpression : Bool) : Parser (List (Segment TypeExpr)) :=
  repeating do
    if (← sees (Look.mark "::")) && !(← sees (Look.third (Look.group .parenthesis))) then
      mark "::"
      return some (← g.segment inExpression)
    else return none

def plainPath (inExpression : Bool) : Parser (Path TypeExpr) := do
  let leading ← mark? "::"
  let first ← g.segment inExpression
  return ⟨leading, first :: (← g.moreSegments inExpression)⟩

/-- A path that may start with a type in angle brackets, and whether it does. -/
def qualifiedPath (inExpression : Bool) : Parser (Bool × Path TypeExpr) := do
  if ← sees (Look.mark "<") then
    mark "<"
    let _ ← g.type true
    let as_ ← when? (Look.word "as") do
      word "as"
      g.plainPath false
    mark ">"
    mark "::"
    let first ← g.segment inExpression
    let more ← repeating do
      if ← sees (Look.mark "::") then
        mark "::"
        return some (← g.segment inExpression)
      else return none
    let own := first :: more
    return (true, match as_ with
      | some path => { path with segments := path.segments ++ own }
      | none => ⟨true, own⟩)
  else return (false, ← g.plainPath inExpression)

/-! ## Bounds -/

/-- Generic parameters in angle brackets, with the names of the types among them. -/
def parameterList : Parser (List String) := do
  mark "<"
  let parameters ← separated (Look.mark ">") (mark ",") g.parameter
  mark ">"
  return parameters.filterMap id

/-- The parameters of a higher-ranked type or bound, if there are any. -/
def ranked : Parser Bool := do
  if ← sees (Look.word "for") then
    word "for"
    let _ ← g.parameterList
    return true
  else return false

/-- The result type of a function, if one is given. -/
def returnType (plus : Bool) : Parser Unit := do
  if ← sees (Look.mark "->") then
    mark "->"
    let _ ← g.type plus

/-- A bound by a trait. Arguments in parentheses come with a result type. -/
def traitBound (rules : BoundRules) : Parser Bound := countingIf Bound.isParsed do
  let isRanked ← g.ranked
  let bracketed ← sees (Look.group .bracket)
  let conditional ← if bracketed then pure true else sees (Look.word "const")
  if bracketed then within .bracket (word "const")
  else if conditional then word "const"
  let optional ← mark? "?"
  if optional && !isRanked then
    let _ ← g.ranked
  let path ← g.plainPath false
  let parenthesis := Look.group .parenthesis
  let called := (← sees parenthesis) || ((← sees (Look.mark "::")) && (← sees (Look.third parenthesis)))
  let last := path.segments.getLast?
  let path ←
    if called && last.any (·.style == .bare) then do
      let _ ← mark? "::"
      let _ ← within .parenthesis (commaSeparated (g.type true))
      g.returnType false
      let last := last.map fun s => { s with style := .parenthesized }
      pure { path with segments := path.segments.dropLast ++ last.toList }
    else pure path
  if conditional then
    if rules.constness then return .conditional else failure
  else return .trait path

def boundOf (rules : BoundRules) : Parser Bound := do
  if ← sees Look.lifetime then
    lifetime
    return .lifetime
  else if ← sees (Look.word "use") then
    word "use"
    mark "<"
    let _ ← separated (Look.mark ">") (mark ",") do
      if ← sees Look.lifetime then lifetime
      else
        let _ ← anyWord
    mark ">"
    if rules.captures then return .captures else failure
  else if ← sees (Look.group .parenthesis) then
    within .parenthesis (g.traitBound rules)
  else g.traitBound rules

/-- What may follow a plus sign in a list of bounds. -/
def boundStart (rules : BoundRules) : Look.Test := fun ts =>
  Look.anyWord ts || Look.anyMark ["::", "?"] ts || Look.lifetime ts || Look.group .parenthesis ts
    || (rules.constness && Look.group .bracket ts)

/-- One or several bounds with plus signs between them, the last perhaps in vain. -/
def bounds (plus : Bool) (rules : BoundRules) : Parser (List Bound) := do
  let first ← g.bound rules
  if plus && (← mark? "+") then
    return first :: (← joined (fun ts => !boundStart rules ts) "+" (g.bound rules))
  else return [first]

/-- The bounds that follow a first one, each after a plus sign. -/
def plusBounds : Parser Unit := do
  let _ ← repeating do
    if ← mark? "+" then
      let _ ← g.bound {}
      return some ()
    else return none

/-- The first trait among bounds, which a trait object has to have. -/
def objectOf (bounds : List Bound) : Parser TypeExpr :=
  if bounds.any Bound.isTrait then
    return .traitObject (bounds.findSome? fun
      | .trait path => some path
      | _ => none)
  else failure

/-! ## Parameters and conditions -/

/-- A generic parameter after its attributes: a lifetime, a type or a constant. -/
def parameterOf : Parser (Option String) := do
  let _ ← g.outerAttributes
  if ← sees Look.lifetime then
    lifetime
    if ← mark? ":" then
      let _ ← joined (Look.anyMark [",", ">"]) "+" lifetime
    return none
  else if ← sees (Look.either Look.name (Look.word "_")) then
    let name ← anyWord
    if ← mark? ":" then
      let _ ← joined (Look.anyMark [",", ">", "="]) "+" (g.bound { constness := true })
    if ← mark? "=" then
      let _ ← g.type true
    return some name
  else
    word "const"
    let _ ← name
    mark ":"
    let _ ← g.type true
    if ← mark? "=" then g.constArgument
    return none

/-- Generic parameters, if there are any, with the names of the types among them. -/
def generics : Parser (List String) := do
  if ← sees (Look.mark "<") then g.parameterList else return []

/-- Where a list of conditions, or of bounds in it, ends. -/
def conditionEnd : Look.Test := fun ts =>
  Look.nothing ts || Look.group .brace ts || Look.anyMark [",", ";", "="] ts
    || Look.markNot ":" ["::"] ts

/-- The conditions on type parameters, if there are any. -/
def conditions : Parser Unit := do
  if ← sees (Look.word "where") then
    word "where"
    let _ ← joined conditionEnd "," do
      if (← sees Look.lifetime) && (← sees (Look.second (Look.mark ":"))) then
        lifetime
        mark ":"
        let _ ← joined conditionEnd "+" lifetime
      else
        let _ ← g.ranked
        let _ ← g.type true
        mark ":"
        let _ ← joined conditionEnd "+" (g.bound { constness := true })

/-! ## Types -/

/-- The words that may start a path without being names. -/
def pathStart : Look.Test := fun ts =>
  Look.name ts || Look.words pathWords ts || Look.mark "::" ts

/-- The name of a foreign interface, if one is given. -/
def foreignInterface : Parser Unit := do
  if ← word? "extern" then
    let _ ← when? Look.text text

/-- An argument of a function type; the first may be a receiver, which has no type of its own. -/
def functionArgument (first : Bool) : Parser TypeExpr := do
  let _ ← g.outerAttributes
  let mutable := first && (← sees (Look.word "mut")) && (← sees (Look.second (Look.word "self")))
  if mutable then word "mut"
  let receiver := first && (← sees (Look.word "self"))
  let named := (← sees (Look.either Look.name (Look.word "_"))) || receiver
  let isNamed := named && (← sees (Look.second (Look.markNot ":" ["::"])))
  if isNamed then
    let _ ← anyWord
    mark ":"
  if mutable then
    -- a receiver that is no type is kept as its tokens
    if isNamed then
      let _ ← sealed (g.type true)
    else word "self"
    return .other
  else g.type true

/-- The arguments of a function type, the last perhaps variadic. -/
def functionArguments : Parser (List TypeExpr) := do
  let first ← when? (fun ts => !Look.nothing ts) (argument true)
  match first with
  | none => return []
  | some none => return []
  | some (some type) =>
    if ← atEnd then return [type]
    else
      mark ","
      let more ← repeating do
        if ← atEnd then return none
        match ← argument false with
        | none => return none
        | some type =>
          if !(← atEnd) then mark ","
          return some type
      return type :: more
where
  /-- One argument, or nothing for the variadic end. -/
  argument (first : Bool) : Parser (Option TypeExpr) := do
    let _ ← g.outerAttributes
    let named := Look.either Look.name (Look.word "_")
    let dots := Look.mark "..."
    if ← sees dots then
      mark "..."
      let _ ← mark? ","
      return none
    else if (← sees named) && (← sees (Look.second (Look.mark ":"))) && (← sees (Look.third dots)) then
      let _ ← anyWord
      mark ":"
      mark "..."
      let _ ← mark? ","
      return none
    else return some (← g.functionArgument first)

def functionType : Parser TypeExpr := do
  let _ ← word? "unsafe"
  foreignInterface
  word "fn"
  let inputs ← within .parenthesis g.functionArguments
  g.returnType false
  return .function inputs

/-- What stands in parentheses as a type. -/
inductive Parenthesized where
  | unit
  | lifetimes (object : TypeExpr)
  | optional (bound : Bound)
  | tuple (elements : List TypeExpr)
  | single (type : TypeExpr)

/-- The inside of a type in parentheses. -/
def parenthesizedInside : Parser Parenthesized := do
  if ← atEnd then return .unit
  else if ← sees Look.lifetime then
    return .lifetimes (← objectOf (← g.bounds true {}))
  else if ← sees (Look.mark "?") then
    return .optional (← g.traitBound {})
  else
    let first ← g.type true
    if ← sees (Look.mark ",") then
      mark ","
      return .tuple (first :: (← commaSeparated (g.type true)))
    else return .single first

/-- A type in parentheses: a tuple, a grouping, or the first bound of a trait object. -/
def parenthesizedType (plus : Bool) : Parser TypeExpr := do
  match ← within .parenthesis g.parenthesizedInside with
  | .unit => return .tuple []
  | .lifetimes object => return .parenthesized object
  | .optional bound =>
    g.plusBounds
    match bound with
    | .trait path => return .traitObject (some path)
    | _ => return .traitObject none
  | .tuple elements => return .tuple elements
  | .single first =>
    if plus && (← sees (Look.mark "+")) then
      match first with
      | .path false path =>
        g.plusBounds
        return .traitObject (some path)
      | _ => return .parenthesized first
    else return .parenthesized first

/-- A type that starts with a path. -/
def pathType (plus isRanked : Bool) : Parser TypeExpr := do
  let (qualified, path) ← g.qualifiedPath false
  if qualified then return .path true path
  else if (← sees (Look.markNot "!" ["!="])) && path.isBare then
    mark "!"
    let _ ← anyGroup
    return .macroCall
  else if isRanked || (plus && (← sees (Look.mark "+"))) then
    if plus && (← mark? "+") then
      let _ ← joined (fun ts => !boundStart {} ts) "+" (g.bound {})
    return .traitObject (some path)
  else return .path false path

/-- A type; the flag says whether bounds may follow it with `+`. -/
def typeOf (plus : Bool) : Parser TypeExpr := do
  let isRanked ← g.ranked
  if isRanked then
    let start := fun ts =>
      Look.name ts || Look.words (["fn", "unsafe", "extern"] ++ pathWords) ts
    if !(← sees start) then failure
  if ← sees (Look.group .parenthesis) then g.parenthesizedType plus
  else if ← sees (Look.words ["fn", "unsafe", "extern"]) then g.functionType
  else if ← sees (Look.either pathStart (Look.mark "<")) then g.pathType plus isRanked
  else if ← sees (Look.word "dyn") then
    word "dyn"
    if ← mark? "*" then
      let _ ← sealed do objectOf (← g.bounds plus {})
      return .other
    else objectOf (← g.bounds plus {})
  else if ← sees (Look.group .bracket) then
    within .bracket do
      let element ← g.type true
      if ← mark? ";" then
        let _ ← g.expr
        return .array element
      else return .slice element
  else if ← sees (Look.mark "*") then
    mark "*"
    if ← sees (Look.word "const") then word "const" else word "mut"
    return .pointer (← g.type false)
  else if ← sees (Look.mark "&") then
    mark "&"
    let _ ← when? Look.lifetime lifetime
    let _ ← word? "mut"
    return .reference (← g.type false)
  else if (← sees (Look.mark "!")) then
    mark "!"
    return .never
  else if ← sees (Look.word "impl") then
    word "impl"
    let bounds ← g.bounds plus { captures := true, constness := true }
    if bounds.any Bound.isTrait then return .implTrait else failure
  else if ← sees (Look.word "_") then
    word "_"
    return .inferred
  else if ← sees Look.lifetime then objectOf (← g.bounds true {})
  else failure

end PayloadSchema.Source.Grammar
