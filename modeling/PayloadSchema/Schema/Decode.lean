import PayloadSchema.Schema.Basic
import PayloadSchema.Document

/-!
# Reading schemas

A schema is read from a document of any format. Members that a schema does not have are passed over, a
member may not repeat, and `null` says that a part is absent. A list stands for a schema if it gives all
parts in order. Objects and lists may not be nested deeper than a given depth.
-/

namespace PayloadSchema

namespace Schema

/-- The names of the parts, in the order of a list of them. -/
def memberNames : List String :=
  ["type", "properties", "required", "items", "additionalProperties", "format", "pattern", "minimum",
   "maximum", "minLength", "maxLength", "enum", "description", "example"]

variable {τ : Type} (doc : Document τ)

/-- A schema with the part of the given name read from a document, where `depth` levels are left.
`child` reads a schema in a part of its own, `property` one inside the object of the properties. -/
def putMember (depth : Nat) (child property : τ → Option Schema) (name : String) (t : τ)
    (s : Schema) : Option Schema :=
  match name with
  | "type" => do
    return { s with kind := ← doc.optional? (fun t => doc.choice? depth t >>= JsonType.ofName?) t }
  | "properties" => do return { s with properties := ← doc.optional? properties t }
  | "required" => do
    return { s with required := ← doc.optional? (doc.list? depth fun _ => doc.text?) t }
  | "items" => do return { s with items := ← doc.optional? child t }
  | "additionalProperties" => do return { s with additional := ← doc.optional? child t }
  | "format" => do return { s with format := ← doc.optional? doc.text? t }
  | "pattern" => do return { s with pattern := ← doc.optional? doc.text? t }
  | "minimum" => do return { s with minimum := ← doc.optional? doc.real? t }
  | "maximum" => do return { s with maximum := ← doc.optional? doc.real? t }
  | "minLength" => do return { s with minLength := ← doc.optional? doc.natural? t }
  | "maxLength" => do return { s with maxLength := ← doc.optional? doc.natural? t }
  | "enum" => do return { s with allowed := ← doc.optional? (doc.list? depth doc.value?) t }
  | "description" => do return { s with description := ← doc.optional? doc.text? t }
  | "example" => do return { s with sample := ← doc.optional? (doc.value? depth) t }
  | _ => none
where
  /-- The properties by name; of two with one name the later stays. -/
  properties (t : τ) : Option (List (String × Schema)) := do
    let _ ← Document.descend? depth
    let entries ← (← doc.members? t).mapM fun (name, t) => do return (← name, ← property t)
    return Dictionary.ofList entries

/-- A schema read from a part of a document, nested at most `depth` deep. A property lies two levels
below, inside the object of the properties. -/
def decode? : Nat → τ → Option Schema
  | 0, _ => none
  | depth + 1, t =>
    let property := match depth with
      | 0 => fun _ => none
      | below + 1 => decode? below
    let put := putMember doc depth (decode? depth) property
    match doc.members? t with
    | some members => Document.record? memberNames put {} members
    | none => do
      let elements ← doc.elements? t
      Document.tuple? memberNames memberNames.length put {} elements

end Schema

end PayloadSchema
