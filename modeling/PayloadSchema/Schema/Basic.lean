import PayloadSchema.Json.Value

/-!
# Schemas

A schema describes the JSON values of one type: an object with properties or with free keys, an array, or
a scalar with its bounds. Every part is optional, and an absent part says nothing.

Two kinds of placeholders stand where there is no structure to show. A *guard placeholder* says that the
description of a type was cut off, at a circle of references or at the depth limit
(`isGuardPlaceholder`); the *unavailable* placeholder says that nothing is known (`isUnavailable`).

`wellFormed` is the shape of containers: `items` only on arrays, `additional` only on objects.
-/

namespace PayloadSchema

/-- The type of a JSON value. -/
inductive JsonType where
  | object
  | array
  | string
  | integer
  | number
  | boolean
deriving DecidableEq, Repr

namespace JsonType

def name : JsonType → String
  | .object => "object"
  | .array => "array"
  | .string => "string"
  | .integer => "integer"
  | .number => "number"
  | .boolean => "boolean"

def ofName? : String → Option JsonType
  | "object" => some .object
  | "array" => some .array
  | "string" => some .string
  | "integer" => some .integer
  | "number" => some .number
  | "boolean" => some .boolean
  | _ => none

@[simp] theorem ofName?_name (t : JsonType) : ofName? t.name = some t := by cases t <;> rfl

end JsonType

/-- A schema. The properties are in ascending order of their names. -/
structure Schema where
  /-- Absent where the type is not known. -/
  kind : Option JsonType := none
  properties : Option (List (String × Schema)) := none
  required : Option (List String) := none
  items : Option Schema := none
  /-- The schema of the values under free keys. -/
  additional : Option Schema := none
  format : Option String := none
  pattern : Option String := none
  minimum : Option Binary64 := none
  maximum : Option Binary64 := none
  minLength : Option Nat := none
  maxLength : Option Nat := none
  /-- The values that are allowed, if they can be listed. -/
  allowed : Option (List Json.Value) := none
  description : Option String := none
  /-- A value of the type, for illustration. -/
  sample : Option Json.Value := none
deriving Inhabited

namespace Schema

/-! ## Builders -/

/-- A schema that fixes the type alone. -/
def ofKind (kind : JsonType) : Schema := { kind := some kind }

/-- An object of which nothing is known but a description. -/
def annotated (description : String) : Schema :=
  { kind := some .object, description := some description }

/-- An array of elements of one schema. -/
def array (items : Schema) : Schema := { kind := some .array, items := some items }

/-- An object with free keys and values of one schema. -/
def map (values : Schema) : Schema := { kind := some .object, additional := some values }

/-- An object with named properties; an empty list of required names is left out. -/
def object (properties : List (String × Schema)) (required : List String) : Schema :=
  { kind := some .object
    properties := some properties
    required := if required = [] then none else some required }

/-- The schema with another description. -/
def withDescription (s : Schema) (description : String) : Schema :=
  { s with description := some description }

/-! ## Placeholders -/

/-- How the description of a cut circle begins. -/
def circularMark : String := "circular reference to"

/-- The description of what was cut at the depth limit. -/
def depthMark : String := "max depth reached"

/-- The description of a value of any type. -/
def dynamicMark : String := "dynamic value: any JSON payload is accepted"

/-- The description of what nothing is known of. -/
def unavailableMark : String :=
  "schema unavailable: type information could not be resolved, the payload shape is unknown"

/-- Stands for a type inside its own description. -/
def circular (identity : String) : Schema := annotated (circularMark ++ " " ++ identity)

/-- Stands for a type at the depth limit. -/
def depthReached : Schema := annotated depthMark

def dynamic : Schema := annotated dynamicMark

/-- Stands for a type of which nothing is known: an object of which every key and value is allowed. -/
def unavailable : Schema := (map {}).withDescription unavailableMark

/-- Whether a description is one of a guard placeholder. -/
def isGuardMark (description : String) : Bool :=
  circularMark.toList.isPrefixOf description.toList || description == depthMark

/-- A schema without structure whose description is one of a guard placeholder. -/
def isGuardPlaceholder (s : Schema) : Bool :=
  s.properties.isNone && s.items.isNone && s.additional.isNone && s.description.any isGuardMark

/-- The placeholder for what nothing is known of, by its description. -/
def isUnavailable (s : Schema) : Bool := s.description == some unavailableMark

/-! ## Well-formed containers -/

mutual
/-- `items` only on arrays and `additional` only on objects, at every level. -/
def wellFormed : Schema → Bool
  | ⟨kind, properties, _, items, additional, _, _, _, _, _, _, _, _, _⟩ =>
    (items.isNone || kind == some .array) && (additional.isNone || kind == some .object)
      && wellFormedAll properties && wellFormedOption items && wellFormedOption additional
/-- Every property, if there are any. -/
def wellFormedAll : Option (List (String × Schema)) → Bool
  | none => true
  | some entries => wellFormedEntries entries
/-- Every schema of a list. -/
def wellFormedEntries : List (String × Schema) → Bool
  | [] => true
  | (_, s) :: rest => wellFormed s && wellFormedEntries rest
def wellFormedOption : Option Schema → Bool
  | none => true
  | some s => wellFormed s
end

/-! ## Equality -/

/-- Equality of two optional parts under an equality of the parts. -/
def sameOption {α : Type} (same : α → α → Bool) : Option α → Option α → Bool
  | none, none => true
  | some a, some b => same a b
  | _, _ => false

mutual
/-- Equality of schemas, with doubles compared as numbers. -/
def same : Schema → Schema → Bool
  | ⟨k, ps, rs, is, ad, f, pt, lo, hi, ml, xl, al, d, ex⟩,
    ⟨k', ps', rs', is', ad', f', pt', lo', hi', ml', xl', al', d', ex'⟩ =>
    k == k' && sameAll ps ps' && rs == rs' && sameChild is is' && sameChild ad ad' && f == f'
      && pt == pt' && sameOption Binary64.same lo lo' && sameOption Binary64.same hi hi'
      && ml == ml' && xl == xl' && sameOption Json.Value.sameElements al al' && d == d'
      && sameOption Json.Value.same ex ex'
/-- Equality of the properties of two schemas. -/
def sameAll : Option (List (String × Schema)) → Option (List (String × Schema)) → Bool
  | none, none => true
  | some a, some b => sameEntries a b
  | _, _ => false
/-- Equality of two lists of named schemas. -/
def sameEntries : List (String × Schema) → List (String × Schema) → Bool
  | [], [] => true
  | (k, a) :: as, (l, b) :: bs => k == l && same a b && sameEntries as bs
  | _, _ => false
/-- Equality of two optional schemas. -/
def sameChild : Option Schema → Option Schema → Bool
  | none, none => true
  | some a, some b => same a b
  | _, _ => false
end

/-- Schemas that the comparison tells apart are not equal, unless it tells the first even from itself. -/
theorem ne_of_same {s t : Schema} (hs : same s s = true) (h : same s t = false) : s ≠ t := by
  intro heq
  rw [← heq, hs] at h
  cases h

end Schema

end PayloadSchema
