import PayloadSchema.Schema.Basic

/-!
# Schemas as JSON

A schema is written as an object with a member for each part that is there, in a fixed order.
-/

namespace PayloadSchema.Schema

open Json (Value)

/-- A member for a part, if the part is there. -/
def member {α : Type} (name : String) (encode : α → Value) : Option α → List (String × Value)
  | none => []
  | some a => [(name, encode a)]

mutual
/-- The value that stands for a schema. -/
def toValue : Schema → Value
  | ⟨kind, properties, required, items, additional, format, pattern, minimum, maximum, minLength,
      maxLength, allowed, description, sample⟩ =>
    .object (member "type" (fun k => .string (JsonType.name k)) kind
      ++ propertiesMember properties
      ++ member "required" (fun names => .array (names.map .string)) required
      ++ childMember "items" items
      ++ childMember "additionalProperties" additional
      ++ member "format" .string format
      ++ member "pattern" .string pattern
      ++ member "minimum" .ofReal minimum
      ++ member "maximum" .ofReal maximum
      ++ member "minLength" (fun n : Nat => .ofInt n) minLength
      ++ member "maxLength" (fun n : Nat => .ofInt n) maxLength
      ++ member "enum" .array allowed
      ++ member "description" .string description
      ++ member "example" id sample)
/-- The member of the properties. -/
def propertiesMember : Option (List (String × Schema)) → List (String × Value)
  | none => []
  | some entries => [("properties", .object (entryMembers entries))]
/-- A member for each named schema. -/
def entryMembers : List (String × Schema) → List (String × Value)
  | [] => []
  | (name, s) :: rest => (name, toValue s) :: entryMembers rest
/-- The member of a child, if there is one. -/
def childMember (name : String) : Option Schema → List (String × Value)
  | none => []
  | some s => [(name, toValue s)]
end

end PayloadSchema.Schema
