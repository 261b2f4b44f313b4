import PayloadSchema.Resolve.Lookup
import PayloadSchema.Resolve.WellKnown
import PayloadSchema.Resolve.Display

/-!
# From written types to references

A type as it is written in a file becomes a reference. A type parameter stands for what it is bound to. A
path that the project does not own may be a well-known type, unless a project type of that name is imported
with all names of a module. Any other path leads to a declaration, of which the reference knows no more
than the place and the arguments, or it is unresolved.

* `FileScope.walk` — the reference that a written type becomes.
-/

namespace PayloadSchema

/-- A declaration with arguments for its type parameters. -/
inductive Instantiation where
  | mk (declaration : Declaration) (arguments : List (TypeRef Instantiation))

/-- A reference to a type of the sources. -/
abbrev SourceType := TypeRef Instantiation

namespace Instantiation

def declaration : Instantiation → Declaration
  | mk d _ => d

def arguments : Instantiation → List SourceType
  | mk _ arguments => arguments

/-- The identity of a declaration with arguments. -/
def identity (i : Instantiation) : String :=
  let base := i.declaration.modulePath ++ "::" ++ i.declaration.name
  match i.arguments with
  | [] => base
  | arguments => base ++ "<" ++ ", ".intercalate (arguments.map (·.identity)) ++ ">"

/-- A reference to a declaration with arguments. -/
def toType (i : Instantiation) : SourceType := .deferred i.identity i

end Instantiation

/-- What type parameters stand for; of two entries with one name the first counts. -/
abbrev Bindings := List (String × SourceType)

/-- A scalar type as a reference. -/
def scalarType (name : String) (s : Scalar) : SourceType := .ready (.scalar name s)

/-- Any JSON value as a reference. -/
def jsonType : SourceType := .ready (.dynamic "serde_json::Value")

/-- A type without a schema as a reference. -/
def unsupportedType (display reason : String) : SourceType := .ready (.unsupported display reason)

/-- How the reason of an unresolved type begins. -/
def unresolvedMark : String := "unresolved type"

/-- A path that leads to no declaration, as a reference. -/
def unresolvedType (display : String) : SourceType :=
  unsupportedType display (unresolvedMark ++ " `" ++ display ++ "`")

/-- The argument at an index, or any value where there is none. -/
def argumentAt (arguments : List (Asking SourceType)) (index : Nat) : Asking SourceType :=
  (arguments[index]?).getD (pure (.ready (.dynamic "_")))

/-- A well-known type of a name with arguments. -/
def WellKnown.toType (name : String) (arguments : List (Asking SourceType)) :
    WellKnown → Asking SourceType
  | optional => return .ready (.optional (← argumentAt arguments 0))
  | pointer => return .ready (.pointer (← argumentAt arguments 0))
  | list => return .ready (.list (← argumentAt arguments 0))
  | map => do
    let key ← argumentAt arguments 0
    return .ready (.map key (← argumentAt arguments 1))
  | scalar s => return scalarType name s
  | json => return jsonType
  | jsonMap => return .ready (.map (scalarType "String" .text) jsonType)

namespace FileScope

variable (scope : FileScope)

/-- Whether a path leads into the library that a file belongs to. -/
def ownsPath (path : String) : Bool :=
  let library := (Segments.split scope.modulePath).headD ""
  path.startsWith "crate::" || (Segments.split path).headD "" == library

/-- The path that names as written in a file stand for: that of an import, or the names themselves if
there are several. -/
def origin? (names : List String) : Option String :=
  match names with
  | [name] => scope.imports.find? name
  | names => some (Segments.join names)

/-- Whether names as written in a file are known to mean a type of the project. -/
def owns (names : List String) : Bool :=
  (names.length == 1 && names.all scope.declares) || (scope.origin? names).any scope.ownsPath

/-- The well-known type that names mean in a file, unless a type of the project stands before it. -/
def wellKnown? (names : List String) (arguments : List (Asking SourceType)) :
    Asking (Option SourceType) :=
  let name := names.getLastD ""
  if scope.owns names then pure none
  else
    match WellKnown.ofName? name (scope.origin? names) with
    | none => pure none
    | some known => do
      let type ← known.toType name arguments
      if names.length = 1 ∧ (scope.origin? names).isNone then
        if (← scope.lookupInGlobs name).isSome then return none else return some type
      else return some type

variable (bindings : Bindings)

/-- The type that names with arguments are bound to as a parameter: a single name without arguments. -/
def bound? (bindings : Bindings) {α : Type} (names : List String) (arguments : List α) :
    Option SourceType :=
  if names.length = 1 ∧ arguments.isEmpty then bindings.lookup (names.getLastD "") else none

/-- The type that names with arguments mean in a file; `display` is their text. -/
def named (names : List String) (display : String) (arguments : List (Asking SourceType)) :
    Asking SourceType :=
  match bound? bindings names arguments with
  | some type => pure type
  | none => do
    match ← scope.wellKnown? names arguments with
    | some type => return type
    | none =>
      match ← scope.lookup names with
      | some declaration => return (Instantiation.mk declaration (← Asking.all arguments)).toType
      | none => return unresolvedType display

mutual
/-- The reference that a written type becomes. -/
def walk : Source.TypeExpr → Asking SourceType
  | .path true path =>
    pure (unsupportedType (Source.TypeExpr.path true path).render "qualified associated type")
  | .path false ⟨leading, segments⟩ =>
    scope.named bindings (segments.map (·.name)) (Source.TypeExpr.path false ⟨leading, segments⟩).render
      (walkLast segments)
  | .reference target => return .ready (.pointer (← walk target))
  | .pointer target => return .ready (.pointer (← walk target))
  | .slice element => return .ready (.list (← walk element))
  | .array element => return .ready (.list (← walk element))
  | .parenthesized inner => walk inner
  | .tuple [] => pure (unsupportedType "()" "unit type carries no data")
  | .tuple elements => pure (unsupportedType (Source.TypeExpr.tuple elements).render "tuple")
  | .function inputs =>
    pure (unsupportedType (Source.TypeExpr.function inputs).render "function-typed value")
  | .traitObject principal =>
    pure (unsupportedType (Source.TypeExpr.traitObject principal).render "trait object")
  | .implTrait => pure (unsupportedType Source.TypeExpr.implTrait.render "trait object")
  | .never => pure (unsupportedType Source.TypeExpr.never.render "unrecognized type syntax")
  | .inferred => pure (unsupportedType Source.TypeExpr.inferred.render "unrecognized type syntax")
  | .macroCall => pure (unsupportedType Source.TypeExpr.macroCall.render "unrecognized type syntax")
  | .other => pure (unsupportedType Source.TypeExpr.other.render "unrecognized type syntax")
/-- The arguments of the last segment of a path. -/
def walkLast : List (Source.Segment Source.TypeExpr) → List (Asking SourceType)
  | [] => []
  | [⟨_, _, types⟩] => walkAll types
  | _ :: segment :: segments => walkLast (segment :: segments)
/-- What each of several types becomes. -/
def walkAll : List Source.TypeExpr → List (Asking SourceType)
  | [] => []
  | type :: types => walk type :: walkAll types
end

end FileScope

end PayloadSchema
