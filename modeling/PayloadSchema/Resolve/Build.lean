import PayloadSchema.Resolve.Walk
import PayloadSchema.Descriptor.Environment

/-!
# Descriptors of declarations

A declaration with arguments for its parameters becomes a descriptor: a structure with named fields a
record, one with a single field without a name another name for its type, an enumeration its variants, and
an alias another name. `Self` stands for the declaration itself.

* `Instantiation.build` — the descriptor of a declaration, or why there is none;
* `Instantiation.load` — the same for a reference: a failure becomes a descriptor without a schema;
* `resolveDeclared`, `resolveExpression` — the descriptor of a type that is declared or written in a file.
-/

namespace PayloadSchema

/-- What the parameters of a declaration stand for, and `Self`. A parameter without an argument stands for
any value; of two parameters with one name the later counts. -/
def Instantiation.bindings (i : Instantiation) (parameters : List String) : Bindings :=
  ("Self", i.toType) :: (bound parameters i.arguments).reverse
where
  /-- Each parameter with its argument. -/
  bound : List String → List SourceType → Bindings
    | [], _ => []
    | name :: names, [] => (name, .ready (.dynamic name)) :: bound names []
    | name :: names, type :: types => (name, type) :: bound names types

/-- The name of a field without the mark of a raw name. -/
def plainName (name : String) : String :=
  if name.startsWith "r#" then String.ofList (name.toList.drop 2) else name

namespace FileScope

variable (scope : FileScope) (bindings : Bindings)

def buildField (f : Source.FieldDecl) : Asking (Field SourceType) := do
  let type ← scope.walk bindings f.type
  return { name := plainName f.name, type, metadata := FieldMetadata.ofAttributes f.attributes
           optional := type.isOptional }

def buildFields (fields : List Source.FieldDecl) : Asking (List (Field SourceType)) :=
  Asking.all (fields.map (scope.buildField bindings))

/-- The descriptor of a structure. -/
def buildStruct (identity : String) (d : Source.StructDecl) : Asking (Descriptor SourceType) := do
  let container := ContainerMetadata.ofAttributes d.attributes
  let descriptor ←
    match d.fields with
    | .named fields => do
      pure (Descriptor.record identity (← scope.buildFields bindings fields) container.casing)
    | .positional [field] => do
      pure ((Descriptor.pointer (← scope.walk bindings field.type)).withIdentity identity)
    | .positional fields =>
      pure (.unsupported identity ("tuple struct with " ++ toString fields.length ++ " fields"))
    | .unit => pure (.unsupported identity "unit struct carries no data")
  return descriptor.withDescription container.description

/-- The name of a variant on the wire. -/
def variantName (metadata : FieldMetadata) (casing : Option Casing) (declared : String) : String :=
  match metadata.rename, casing with
  | some name, _ => name
  | none, some rule => rule.ofVariant declared
  | none, none => declared

/-- The payload of a variant: the type of a single field, or else a type of its own. -/
def buildPayload (identity : String) : Source.Fields → Asking (Option SourceType)
  | .unit => pure none
  | .positional [field] => some <$> scope.walk bindings field.type
  | .positional fields =>
    pure (some (unsupportedType identity ("tuple variant with " ++ toString fields.length ++ " fields")))
  | .named fields => do
    return some (.ready (.record identity (← scope.buildFields bindings fields) none))

def buildVariant (identity : String) (casing : Option Casing) (variant : Source.VariantDecl) :
    Asking (Variant SourceType) := do
  let payload ← scope.buildPayload bindings (identity ++ "::" ++ variant.name) variant.fields
  return { name := variantName (FieldMetadata.ofAttributes variant.attributes) casing variant.name
           payload }

/-- The descriptor of an enumeration; ignored variants are left out. -/
def buildEnum (identity : String) (d : Source.EnumDecl) : Asking (Descriptor SourceType) := do
  let container := ContainerMetadata.ofAttributes d.attributes
  let kept := d.variants.filter fun variant =>
    !(FieldMetadata.ofAttributes variant.attributes).ignore
  let variants ← Asking.all (kept.map (scope.buildVariant bindings identity container.casing))
  return (Descriptor.enumeration identity variants).withDescription container.description

def buildAlias (identity : String) (d : Source.AliasDecl) : Asking (Descriptor SourceType) := do
  let container := ContainerMetadata.ofAttributes d.attributes
  let target ← scope.walk bindings d.type
  return ((Descriptor.pointer target).withIdentity identity).withDescription container.description

/-- The descriptor of an item in a scope. -/
def buildItem (i : Instantiation) : Source.Item → Asking (Except Failure (Descriptor SourceType))
  | .struct d => .ok <$> scope.buildStruct (i.bindings d.parameters) i.identity d
  | .enum d => .ok <$> scope.buildEnum (i.bindings d.parameters) i.identity d
  | .typeAlias d => .ok <$> scope.buildAlias (i.bindings d.parameters) i.identity d
  | _ => pure (.error (.unsupportedShape ("`" ++ i.declaration.name ++ "` is not a data type")))

end FileScope

/-- The failure of a file that does not declare a type. -/
def Failure.notDeclared (file : FilePath) (name : String) : Failure :=
  .notFound ("type `" ++ name ++ "` is not declared in " ++ file.text)

namespace Instantiation

/-- The descriptor of a declaration with arguments, or why there is none. -/
def build (i : Instantiation) : Asking (Except Failure (Descriptor SourceType)) := do
  let d := i.declaration
  match ← Asking.sourceOf d.file with
  | .error failure => return .error failure
  | .ok source =>
    match ← Asking.scopeOf d.file with
    | .error failure => return .error failure
    | .ok scope =>
      match source.find? d.name with
      | none => return .error (.notDeclared d.file d.name)
      | some item => scope.buildItem i item

/-- The descriptor behind a reference to a declaration, given what was built. -/
def loaded (i : Instantiation) : Except Failure (Descriptor SourceType) → Descriptor SourceType
  | .ok d => d
  | .error failure => .unsupported i.identity failure.message

/-- The descriptor behind a reference to a declaration. -/
def load (i : Instantiation) : Asking (Descriptor SourceType) := i.loaded <$> i.build

end Instantiation

/-- The descriptor behind a reference. -/
def TypeRef.fetch : SourceType → Asking (Descriptor SourceType)
  | .ready d => pure d
  | .deferred _ i => i.load

/-- The descriptor behind a written type, or why it has no schema. -/
def outcome (d : Descriptor SourceType) : Except Failure (Descriptor SourceType) :=
  match d.shape with
  | .unsupported reason =>
    .error (if reason.startsWith unresolvedMark then .notFound reason else .unsupportedShape reason)
  | _ => .ok d

/-- The descriptor of a type declared in a file, or why there is none. -/
def resolveDeclared (file : FilePath) (name : String) :
    Asking (Except Failure (Descriptor SourceType)) := do
  match ← Asking.scopeOf file with
  | .error failure => return .error failure
  | .ok scope =>
    if scope.declares name then (Instantiation.mk (scope.declaration name) []).build
    else return .error (.notDeclared file name)

/-- The descriptor of a type expression as it would be understood inside a file, or why there is none. -/
def resolveExpression (file : FilePath) (text : String) :
    Asking (Except Failure (Descriptor SourceType)) :=
  match Source.TypeExpr.ofText? text with
  | none => pure (.error (.parseFailure file ("Invalid type expression `" ++ text ++ "`")))
  | some type => do
    match ← Asking.scopeOf file with
    | .error failure => return .error failure
    | .ok scope =>
      let found ← scope.walk [] type
      return outcome (← found.fetch)

end PayloadSchema
