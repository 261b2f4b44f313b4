import PayloadSchema.Source.Grammar.Statement

/-!
# Items

Declarations of data types, imports and module names are kept; of a constant and the like the items in its
blocks and in those of its attributes are kept; everything else is only checked.
-/

namespace PayloadSchema.Source.Grammar

open PayloadSchema.Source.Parser

variable (g : Grammar)

/-! ## Visibility and signatures -/

/-- A restriction of visibility that is a word alone. -/
private def visibilityWord : Parser Unit :=
  within .parenthesis do
    if ← sees (Look.words ["crate", "self", "super"]) then
      let _ ← anyWord
      if !(← atEnd) then failure
    else failure

/-- A restriction of visibility to a path. -/
private def visibilityPath : Parser Unit :=
  within .parenthesis do
    word "in"
    let _ ← barePath

/-- A visibility, and whether there is one. Parentheses that restrict nothing belong to what follows. -/
def visibility : Parser Bool := do
  if ← sees (Look.word "pub") then
    word "pub"
    if (← attempt visibilityWord).isNone then
      let startsPath ← attempt (ahead (within .parenthesis (word "in")))
      if startsPath.isSome then visibilityPath
    return true
  else return false

/-- Whether a function starts here, with its qualifiers. -/
def signatureAhead (safe : Bool) : Parser Bool := do
  let seen ← attempt (ahead do
    let _ ← word? "const"
    let _ ← word? "async"
    if safe && (← sees (Look.word "safe")) then word "safe"
    else
      let _ ← word? "unsafe"
    foreignInterface
    sees (Look.word "fn"))
  return seen.getD false

/-- A receiver: `self`, perhaps by reference, perhaps with a type. -/
def receiver : Parser Unit := do
  let byReference ← mark? "&"
  if byReference then
    let _ ← when? Look.lifetime lifetime
  let _ ← word? "mut"
  word "self"
  if !byReference && (← mark? ":") then
    let _ ← g.type true

/-- An argument of a function: whether it is a receiver, or none for the variadic end. -/
def argument : Parser (Option Bool) := do
  let _ ← g.outerAttributes
  if ← mark? "..." then
    if !(← atEnd) then mark ","
    return none
  else if (← attempt g.receiver).isSome then return some true
  else if ← sees (fun ts => Look.name ts && Look.second (Look.mark "<") ts) then
    let _ ← g.type true
    return some false
  else
    let _ ← g.pattern
    mark ":"
    if ← mark? "..." then
      if !(← atEnd) then mark ","
      return none
    else
      let _ ← g.type true
      return some false

/-- The arguments of a function: only the first may be a receiver. -/
def arguments : Parser Unit := do
  if !(← atEnd) then
    match ← g.argument with
    | none => return ()
    | some _ =>
      if !(← atEnd) then
        mark ","
        let _ ← repeating do
          if ← atEnd then return none
          match ← g.argument with
          | none => return none
          | some isReceiver =>
            if isReceiver then failure
            if !(← atEnd) then mark ","
            return some ()

/-- The signature of a function, and whether the function is called safe. What is met in its conditions comes
before what is met in its arguments. -/
def signature (safe : Bool) : Parser Bool := do
  let _ ← word? "const"
  let _ ← word? "async"
  let isSafe := safe && (← sees (Look.word "safe"))
  if isSafe then word "safe"
  else
    let _ ← word? "unsafe"
  foreignInterface
  word "fn"
  let _ ← name
  let _ ← g.generics
  let (_, inner) ← collecting do
    within .parenthesis g.arguments
    g.returnType true
  g.conditions
  note inner
  return isSafe

def body : Parser Unit := g.attributedBlock

/-! ## Fields and data types -/

/-- A field with a name. A field called `_` may be a structure or union without a name. -/
def fieldOf : Parser FieldDecl := do
  let attributes ← g.outerAttributes
  let _ ← visibility
  let unnamed ← sees (Look.word "_")
  let name ← if unnamed then anyWord else Parser.name
  mark ":"
  let nested := fun ts =>
    Look.word "struct" ts || (Look.word "union" ts && Look.second (Look.group .brace) ts)
  if unnamed && (← sees nested) then
    let _ ← anyWord
    let _ ← sealed (within .brace (commaSeparated g.field))
    return { attributes, name, type := .other }
  else return { attributes, name, type := ← g.type true }

/-- Fields with names, in braces. -/
def namedFields : Parser Fields := do
  return .named (← within .brace (commaSeparated g.fieldOf))

def positionalField : Parser FieldDecl := do
  let attributes ← g.outerAttributes
  let _ ← visibility
  return { attributes, name := "", type := ← g.type true }

/-- Fields without names, in parentheses. -/
def positionalFields : Parser Fields := do
  return .positional (← within .parenthesis (commaSeparated g.positionalField))

/-- A structure after its visibility. -/
def structureItem (attributes : List Meta) : Parser Item := do
  word "struct"
  let name ← name
  let parameters ← g.generics
  let conditioned ← sees (Look.word "where")
  g.conditions
  if !conditioned && (← sees (Look.group .parenthesis)) then
    let fields ← g.positionalFields
    g.conditions
    mark ";"
    return .struct { attributes, name, parameters, fields }
  else if ← sees (Look.group .brace) then
    return .struct { attributes, name, parameters, fields := ← g.namedFields }
  else
    mark ";"
    return .struct { attributes, name, parameters, fields := .unit }

/-- A variant of an enumeration, perhaps with its number. -/
def variant : Parser VariantDecl := do
  let attributes ← g.outerAttributes
  let _ ← visibility
  let name ← name
  let fields ←
    if ← sees (Look.group .brace) then g.namedFields
    else if ← sees (Look.group .parenthesis) then g.positionalFields
    else pure .unit
  if ← mark? "=" then
    let _ ← g.expr
  return { attributes, name, fields }

/-- An enumeration after its visibility. -/
def enumerationItem (attributes : List Meta) : Parser Item := do
  word "enum"
  let name ← name
  let parameters ← g.generics
  g.conditions
  let variants ← within .brace (commaSeparated g.variant)
  return .enum { attributes, name, parameters, variants }

/-- A union after its visibility. -/
def union : Parser Unit := do
  word "union"
  let _ ← name
  let _ ← g.generics
  g.conditions
  let _ ← g.namedFields

/-! ## Aliases and constants -/

/-- On which side of the equals sign of an alias its conditions may stand. -/
inductive ConditionPlace where
  | before
  | after
  | either
deriving DecidableEq

/-- Bounds with plus signs between them, up to where a test holds. -/
def boundsUpTo (stop : Look.Test) (constness : Bool) : Parser Unit := do
  let _ ← separated stop (mark "+") (g.bound { constness })

/-- An alias from its first word on, or an associated type, which may have bounds or lack its definition: the
name, the type parameters, whether there are bounds, and the definition. -/
def aliasParts (place : ConditionPlace) : Parser (String × List String × Bool × Option TypeExpr) := do
  word "type"
  let name ← name
  let parameters ← g.generics
  let bounded ← mark? ":"
  if bounded then
    g.boundsUpTo (fun ts => Look.word "where" ts || Look.anyMark ["=", ";"] ts) true
  let conditioned := place != .after && (← sees (Look.word "where"))
  if conditioned then g.conditions
  let type ← when? (Look.mark "=") do
    mark "="
    g.type true
  if place != .before && !conditioned then g.conditions
  mark ";"
  return (name, parameters, bounded, type)

/-- An alias, or an associated type, which is no alias if it has bounds or lacks its definition. -/
def aliasOf (attributes : List Meta) (place : ConditionPlace) : Parser Item := do
  let (name, parameters, bounded, type) ← g.aliasParts place
  match type with
  | some type => return if bounded then .closed else .typeAlias { attributes, name, parameters, type }
  | none => return .closed

/-- A constant from its first word on, and whether it is one with a value and without parameters. -/
def constant : Parser Bool := do
  word "const"
  if !(← sees (Look.either Look.name (Look.word "_"))) then failure
  let _ ← anyWord
  let generic ← sees (Look.mark "<")
  let _ ← g.generics
  mark ":"
  let _ ← g.type true
  let value ← mark? "="
  if value then
    let _ ← g.expr
  let conditioned ← sees (Look.word "where")
  g.conditions
  mark ";"
  return value && !generic && !conditioned

/-- A static from its first word on, and whether it has a type and a value. -/
def static : Parser Bool := do
  word "static"
  let _ ← word? "mut"
  let _ ← name
  if ← mark? "=" then
    let _ ← g.expr
    mark ";"
    return false
  else
    mark ":"
    let _ ← g.type true
    if ← mark? ";" then return false
    else
      mark "="
      let _ ← g.expr
      mark ";"
      return true

/-! ## Imports -/

/-- The trees of a group, and whether one of them has no value or starts at the root. -/
def useGroup (rootAllowed : Bool) : Parser (List UseTree × Bool) := do
  let trees ← commaSeparated do
    let fromRoot := rootAllowed && (← sees (Look.mark "::"))
    if fromRoot then mark "::"
    let tree ← g.useTree (rootAllowed && !fromRoot)
    return if fromRoot then none else tree
  return (trees.filterMap id, trees.any (·.isNone))

def useTreeOf (rootAllowed : Bool) : Parser (Option UseTree) := do
  if ← sees (Look.either Look.name (Look.words ["self", "super", "crate", "try"])) then
    let name ← anyWord
    if ← mark? "::" then return (← g.useTree false).map (.path name)
    else if ← word? "as" then
      if !(← sees (Look.either Look.name (Look.word "_"))) then failure
      return some (.rename name (← anyWord))
    else return some (.name name)
  else if ← mark? "*" then return some .glob
  else
    let (trees, rooted) ← within .brace (g.useGroup rootAllowed)
    return if rooted then none else some (.group trees)

/-- An import after its visibility. -/
def importItem : Parser Item := do
  word "use"
  let rooted ← mark? "::"
  let tree ← g.useTree (!rooted)
  mark ";"
  return match tree with
    | some tree => .use tree
    | none => .closed

/-! ## Macros -/

/-- What starts a macro call among items. -/
def macroCallStart : Look.Test := fun ts =>
  Look.name ts || Look.words ["self", "super", "crate"] ts || Look.mark "::" ts

/-- A macro call among items; one that defines a macro names it. Only braces need no semicolon. -/
def macroCall (named : Bool) : Parser Unit := do
  let _ ← barePath
  mark "!"
  if named then
    let _ ← when? (Look.either Look.name (Look.word "try")) anyWord
  let (d, _) ← anyGroup
  if d != .brace then mark ";"

/-- A macro definition with parameters. -/
def macroDefinition : Parser Unit := do
  word "macro"
  let _ ← name
  if ← sees (Look.group .parenthesis) then skipGroup .parenthesis
  skipGroup .brace

/-! ## Members of blocks of items -/

def itemsToEnd {α : Type} (item : Parser α) : Parser (List α) :=
  repeating do
    if ← atEnd then return none
    return some (← item)

/-- A block of items with attributes at its start. -/
def itemBlock (item : Parser Unit) : Parser Unit :=
  within .brace do
    let _ ← g.innerAttributes
    let _ ← itemsToEnd item

/-- A function of a foreign interface, and whether it is kept as more than its tokens: neither called safe nor
with a body. -/
def foreignFunction : Parser Bool := do
  let isSafe ← g.signature true
  let hasBody ← sees (Look.group .brace)
  if hasBody then g.body else mark ";"
  return !isSafe && !hasBody

/-- A static of a foreign interface, and whether it is kept as more than its tokens: neither called safe or
unsafe nor with a value. -/
def foreignStatic : Parser Bool := do
  let qualifier ← when? (Look.words ["unsafe", "safe"]) anyWord
  word "static"
  let _ ← word? "mut"
  let _ ← name
  mark ":"
  let _ ← g.type true
  let hasValue ← mark? "="
  if hasValue then
    let _ ← g.expr
  mark ";"
  return qualifier.isNone && !hasValue

/-- A type of a foreign interface, and whether it is kept as more than its tokens: with neither bounds nor a
definition. -/
def foreignType : Parser Bool := do
  let (_, _, bounded, type) ← g.aliasParts .either
  return !bounded && type.isNone

/-- An item declared in a foreign interface. One that is kept as its tokens has no attributes either. -/
def foreignItem : Parser Unit := do
  let _ ← countingIf id do
    let _ ← g.outerAttributes
    let visible ← visibility
    let static := Look.word "static"
    if ← signatureAhead true then g.foreignFunction
    else if ← sees (fun ts => static ts || (Look.words ["unsafe", "safe"] ts && Look.second static ts)) then
      g.foreignStatic
    else if ← sees (Look.word "type") then g.foreignType
    else if !visible && (← sees macroCallStart) then
      macroCall false
      return true
    else failure

def traitItem : Parser Unit := do
  let _ ← g.outerAttributes
  let visible ← visibility
  let default ← word? "default"
  if ← signatureAhead false then
    let _ ← g.signature false
    if ← sees (Look.group .brace) then g.body else mark ";"
  else if ← sees (Look.word "const") then
    let _ ← g.constant
  else if ← sees (Look.word "type") then
    let _ ← g.aliasOf [] .after
  else if !visible && !default && (← sees macroCallStart) then macroCall false
  else failure

/-- An item of an implementation. -/
def implementationItem : Parser Unit := do
  let _ ← g.outerAttributes
  let visible ← visibility
  let default := (← sees (Look.word "default")) && !(← sees (Look.second (Look.mark "!")))
  if default then word "default"
  if ← signatureAhead false then
    let _ ← g.signature false
    if !(← mark? ";") then g.body
  else if ← sees (Look.word "const") then
    let _ ← g.constant
  else if ← sees (Look.word "type") then
    let _ ← g.aliasOf [] .after
  else if !visible && !default && (← sees macroCallStart) then macroCall false
  else failure

/-! ## Traits and implementations -/

/-- The rest of a trait after its parameters. -/
def traitRest : Parser Unit := do
  if ← mark? ":" then
    g.boundsUpTo (fun ts => Look.word "where" ts || Look.group .brace ts) true
  g.conditions
  g.itemBlock g.traitItem

/-- A trait after its visibility, or another name for bounds, which is worth as much as a constant. What is met
in the conditions of the latter comes before what is met in the bounds. -/
def traitItemOrAlias : Parser Bool := do
  let qualified ← sees (Look.words ["unsafe", "auto"])
  let _ ← word? "unsafe"
  let _ ← word? "auto"
  word "trait"
  let _ ← name
  let _ ← g.generics
  if !qualified && (← mark? "=") then
    let (_, inner) ← collecting (g.boundsUpTo (fun ts => Look.word "where" ts || Look.mark ";" ts) false)
    g.conditions
    note inner
    mark ";"
    return true
  else
    g.traitRest
    return false

/-- Whether an angle bracket after `impl` opens parameters, and not the type of a qualified path. -/
def startsParameters : Look.Test := fun ts =>
  Look.mark "<" ts
    && (Look.second (Look.anyMark [">", "#"]) ts || Look.second (Look.word "const") ts
      || (Look.second (Look.either Look.lifetime Look.name) ts
        && Look.third (fun ts => Look.markNot ":" ["::"] ts || Look.anyMark [",", ">", "="] ts) ts))

/-- An implementation after its visibility. -/
def implementation : Parser Unit := do
  let _ ← word? "default"
  let _ ← word? "unsafe"
  word "impl"
  if ← sees startsParameters then
    let _ ← g.parameterList
  if ← sees (fun ts => Look.word "const" ts || (Look.mark "?" ts && Look.second (Look.word "const") ts)) then
    let _ ← mark? "?"
    word "const"
  if ← sees (fun ts => Look.mark "!" ts && !Look.second (Look.group .brace) ts) then mark "!"
  let _ ← g.type true
  if ← word? "for" then
    let _ ← g.type true
  g.conditions
  g.itemBlock g.implementationItem

/-! ## Items -/

/-- The import of a whole library, after its visibility. -/
def libraryImport : Parser Unit := do
  word "extern"
  word "crate"
  if !(← word? "self") then
    let _ ← name
  if ← word? "as" then
    if !(← word? "_") then
      let _ ← name
  mark ";"

/-- A foreign interface with its items. -/
def foreignBlock : Parser Unit := do
  let _ ← word? "unsafe"
  word "extern"
  let _ ← when? Look.text text
  g.itemBlock g.foreignItem

/-- A module after its visibility, with or without its items. -/
def moduleItem : Parser Item := do
  let _ ← word? "unsafe"
  word "mod"
  let name ← if ← sees (Look.word "try") then anyWord else Parser.name
  if !(← mark? ";") then
    g.itemBlock do
      let _ ← g.item
  return .module name

/-- A constant or the like after its attributes, with the items in the blocks of both, if it counts as one. -/
def valueItem (inAttributes : List Item) (p : Parser Bool) : Parser Item := do
  let (counts, inner) ← collecting p
  return if counts then .value (inAttributes ++ inner) else .closed

/-- An item that is only checked. -/
def closedItem (p : Parser Unit) : Parser Item := do
  p
  return .closed

/-- An item after its attributes, with the items in their blocks, and its visibility. -/
def itemRest (attributes : List Meta) (inAttributes : List Item) (visible : Bool) : Parser Item := do
  let isTrait := fun ts => Look.word "auto" ts && Look.second (Look.word "trait") ts
  let value := valueItem inAttributes
  let always (p : Parser Unit) : Parser Item := value do
    p
    return true
  if ← signatureAhead false then closedItem do
    let _ ← g.signature false
    if !(← mark? ";") then g.body
  else if ← sees (Look.word "extern") then
    if ← sees (Look.second (Look.word "crate")) then always libraryImport
    else if visible then failure
    else always g.foreignBlock
  else if ← sees (Look.word "use") then g.importItem
  else if ← sees (Look.word "static") then value g.static
  else if ← sees (Look.word "const") then value g.constant
  else if ← sees (Look.word "unsafe") then
    if ← sees (Look.second (Look.either (Look.word "trait") isTrait)) then
      closedItem do
        let _ ← g.traitItemOrAlias
    else if ← sees (Look.second (Look.word "impl")) then closedItem g.implementation
    else if ← sees (Look.second (Look.word "mod")) then g.moduleItem
    else if visible then failure
    else always g.foreignBlock
  else if ← sees (Look.word "mod") then g.moduleItem
  else if ← sees (Look.word "type") then g.aliasOf attributes .before
  else if ← sees (Look.word "struct") then g.structureItem attributes
  else if ← sees (Look.word "enum") then g.enumerationItem attributes
  else if ← sees (fun ts => Look.word "union" ts && Look.second Look.name ts) then always g.union
  else if ← sees (Look.either (Look.word "trait") isTrait) then value g.traitItemOrAlias
  else if ← sees (fun ts => Look.word "impl" ts
      || (Look.word "default" ts && !Look.second (Look.mark "!") ts)) then closedItem g.implementation
  else if ← sees (Look.word "macro") then closedItem macroDefinition
  else if !visible && (← sees macroCallStart) then always (macroCall true)
  else failure

/-- An item. The items in its blocks are its own and not met outside. -/
def itemOf : Parser Item :=
  sealed do
    let (attributes, inAttributes) ← collecting g.outerAttributes
    let visible ← visibility
    g.itemRest attributes inAttributes visible

end PayloadSchema.Source.Grammar
