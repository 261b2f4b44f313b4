import PayloadSchema.Metadata.Basic

/-!
# Descriptors

A descriptor says what a type looks like: its shape, an identity under which it is known, and a
description. The types of fields, elements, targets and payloads are references (`TypeRef`): a descriptor
that is there already, or an identity with a handle from which the descriptor is loaded on demand, so that
a type can refer to itself.

* `Descriptor.isResolvable` — whether there is any structure to show;
* `Descriptor.modulePath?` — the module part of an identity of the form `path::Name`.
-/

namespace PayloadSchema

/-- The scalar types. -/
inductive Scalar where
  | text
  | character
  | boolean
  | integer (unsigned : Bool)
  | real
  /-- A point in time. -/
  | instant
  /-- A day of the calendar. -/
  | date
  | uuid
deriving DecidableEq, Repr

/-- A field of a record, by its declared name. -/
structure Field (τ : Type) where
  name : String
  type : τ
  metadata : FieldMetadata := {}
  /-- Declared as a value that may be absent. -/
  optional : Bool := false

/-- A variant of an enumeration. -/
structure Variant (τ : Type) where
  name : String
  payload : Option τ

/-- What a type looks like. -/
inductive Shape (τ : Type) where
  | scalar (scalar : Scalar)
  | record (fields : List (Field τ)) (casing : Option Casing)
  | list (element : τ)
  | map (key value : τ)
  /-- A value that is written as its target: a pointer, another name, or a value that may be absent. -/
  | pointer (target : τ) (optional : Bool)
  | enumeration (variants : List (Variant τ))
  /-- Any value at all. -/
  | dynamic
  /-- No schema exists, for a reason. -/
  | unsupported (reason : String)

/-- A type by its shape, with the identity under which it is known. -/
structure Descriptor (τ : Type) where
  identity : String
  shape : Shape τ
  description : Option String := none

/-- A reference to a type. -/
inductive TypeRef (ρ : Type) where
  | ready (descriptor : Descriptor (TypeRef ρ))
  | deferred (identity : String) (handle : ρ)

instance {τ : Type} : Inhabited (Descriptor τ) := ⟨{ identity := "", shape := .dynamic }⟩

instance {ρ : Type} : Inhabited (TypeRef ρ) := ⟨.ready default⟩

namespace TypeRef

variable {ρ : Type}

/-- The identity of a type, known without loading it. -/
def identity : TypeRef ρ → String
  | ready d => d.identity
  | deferred identity _ => identity

/-- How a reference is shown: by its identity alone, since the types behind it may form a circle. -/
def render (t : TypeRef ρ) : String := "TypeRef(" ++ t.identity ++ ")"

/-- A type that is there and known to allow absence. -/
def isOptional : TypeRef ρ → Bool
  | ready ⟨_, .pointer _ optional, _⟩ => optional
  | _ => false

end TypeRef

namespace Descriptor

variable {τ ρ : Type}

/-! ## Builders -/

def scalar (identity : String) (s : Scalar) : Descriptor τ := { identity, shape := .scalar s }

def record (identity : String) (fields : List (Field τ)) (casing : Option Casing) : Descriptor τ :=
  { identity, shape := .record fields casing }

def enumeration (identity : String) (variants : List (Variant τ)) : Descriptor τ :=
  { identity, shape := .enumeration variants }

def dynamic (identity : String) : Descriptor τ := { identity, shape := .dynamic }

def unsupported (identity reason : String) : Descriptor τ := { identity, shape := .unsupported reason }

def list (element : TypeRef ρ) : Descriptor (TypeRef ρ) :=
  { identity := "Vec<" ++ element.identity ++ ">", shape := .list element }

def map (key value : TypeRef ρ) : Descriptor (TypeRef ρ) :=
  { identity := "Map<" ++ key.identity ++ ", " ++ value.identity ++ ">", shape := .map key value }

def pointer (target : TypeRef ρ) : Descriptor (TypeRef ρ) :=
  { identity := "Box<" ++ target.identity ++ ">", shape := .pointer target false }

/-- A value that may be absent. -/
def optional (target : TypeRef ρ) : Descriptor (TypeRef ρ) :=
  { identity := "Option<" ++ target.identity ++ ">", shape := .pointer target true }

/-- The type under another identity. -/
def withIdentity (d : Descriptor τ) (identity : String) : Descriptor τ := { d with identity }

/-- The type with a description in the place of its own. -/
def withDescription (d : Descriptor τ) (description : Option String) : Descriptor τ :=
  { d with description }

/-! ## Questions -/

/-- Whether there is any structure to show. A record needs a field and an enumeration a variant. -/
def isResolvable (d : Descriptor τ) : Bool :=
  match d.shape with
  | .record fields _ => !fields.isEmpty
  | .enumeration variants => !variants.isEmpty
  | .dynamic => false
  | .unsupported _ => false
  | _ => true

end Descriptor

end PayloadSchema
