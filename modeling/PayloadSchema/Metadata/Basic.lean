import PayloadSchema.Metadata.Setting
import PayloadSchema.Schema.Basic

/-!
# Metadata

What the attributes of a field and of a container amount to: the settings in order, of which a later one
replaces an earlier one (`FieldMetadata.set`). Attributes come as trees from a declaration, or as texts
from a type that describes itself; a text that is no attribute is passed over.

* `FieldMetadata.wireName` — the name of a property: the one given, else the declared one in the casing of
  its container;
* `FieldMetadata.isRequired` — whether a property is required under a policy;
* `FieldMetadata.constrain` — a property's schema with the constraints of its field.
-/

namespace PayloadSchema

open Source (Meta)

/-- Which properties are required. -/
inductive RequiredPolicy where
  /-- Those that say so. -/
  | tagged
  /-- All that are not optional. -/
  | nonOptional
deriving DecidableEq, Repr, Inhabited

/-- What is known of a field or variant beside its type. -/
structure FieldMetadata where
  rename : Option String := none
  ignore : Bool := false
  omitEmpty : Bool := false
  flatten : Bool := false
  required : Bool := false
  format : Option String := none
  pattern : Option String := none
  minimum : Option Binary64 := none
  maximum : Option Binary64 := none
  minLength : Option Nat := none
  maxLength : Option Nat := none
  oneOf : Option (List String) := none
  description : Option String := none
  sample : Option Json.Value := none
deriving Inhabited

namespace FieldMetadata

open Metadata

/-- The metadata after one more setting. Documentation is not set but joined in the end. -/
def set (m : FieldMetadata) : Setting → FieldMetadata
  | .rename name => { m with rename := some name }
  | .ignore => { m with ignore := true }
  | .omitEmpty => { m with omitEmpty := true }
  | .flatten => { m with flatten := true }
  | .required => { m with required := true }
  | .format name => { m with format := some name }
  | .pattern text => { m with pattern := some text }
  | .minimum bound => { m with minimum := some bound }
  | .maximum bound => { m with maximum := some bound }
  | .minLength bound => { m with minLength := some bound }
  | .maxLength bound => { m with maxLength := some bound }
  | .oneOf values => { m with oneOf := some values }
  | .description text => { m with description := some text }
  | .sample value => { m with sample := some value }
  | .documentation _ => m

/-- The lines of documentation among settings. -/
def documentation (settings : List Setting) : List String :=
  settings.filterMap fun
    | .documentation line => some line
    | _ => none

/-- The metadata that settings amount to. The documentation is the description if no other is given. -/
def ofSettings (settings : List Setting) : FieldMetadata :=
  let m := settings.foldl set {}
  { m with description := m.description.or (joinLines (documentation settings)) }

/-- The metadata that attributes amount to. -/
def ofAttributes (attributes : List Meta) : FieldMetadata :=
  ofSettings (attributes.flatMap Setting.ofMeta)

/-- The metadata that tags amount to. -/
def ofTags (tags : List String) : FieldMetadata := ofAttributes (tags.filterMap Meta.ofText?)

/-- The name of the property that a field becomes. -/
def wireName (m : FieldMetadata) (declared : String) (casing : Option Casing) : String :=
  match m.rename, casing with
  | some name, _ => name
  | none, some rule => rule.ofField declared
  | none, none => snakeCase declared

/-- Whether the property is required. What may be left out is not. -/
def isRequired (m : FieldMetadata) (optional : Bool) (policy : RequiredPolicy) : Bool :=
  !m.omitEmpty && !optional && (policy == .nonOptional || m.required)

/-- A listed value as JSON: a number where the property is one and the text reads as JSON, else a
text. -/
def listedValue (numeric : Bool) (text : String) : Json.Value :=
  if numeric then (Json.Value.ofText? text).getD (.string text) else .string text

/-- A property's schema with the constraints of its field. Bounds of the length are for texts only, and
the description of a placeholder that cuts off a type stays. -/
def constrain (m : FieldMetadata) (s : Schema) : Schema :=
  let isText := s.kind == some .string
  let numeric := s.kind == some .integer || s.kind == some .number
  let constrained :=
    { s with
      format := m.format.or s.format
      pattern := m.pattern.or s.pattern
      minimum := m.minimum.or s.minimum
      maximum := m.maximum.or s.maximum
      minLength := if isText then m.minLength.or s.minLength else s.minLength
      maxLength := if isText then m.maxLength.or s.maxLength else s.maxLength
      allowed := (m.oneOf.map (·.map (listedValue numeric))).or s.allowed
      sample := m.sample.or s.sample }
  if s.isGuardPlaceholder then constrained
  else { constrained with description := m.description.or s.description }

end FieldMetadata

/-- What is known of a structure or enumeration beside its parts. -/
structure ContainerMetadata where
  casing : Option Casing := none
  description : Option String := none
deriving Inhabited

namespace ContainerMetadata

open Metadata

/-- The lines of documentation among settings. -/
def documentation (settings : List ContainerSetting) : List String :=
  settings.filterMap fun
    | .documentation line => some line
    | .casing _ => none

/-- The last rule for names among settings; one that is not known counts as none. -/
def lastCasing (settings : List ContainerSetting) : Option Casing :=
  settings.foldl (fun casing setting =>
    match setting with
    | .casing rule => rule
    | .documentation _ => casing) none

/-- The metadata that attributes amount to. -/
def ofAttributes (attributes : List Meta) : ContainerMetadata :=
  let settings := attributes.flatMap ContainerSetting.ofMeta
  { casing := lastCasing settings, description := joinLines (documentation settings) }

/-- The metadata that tags amount to. -/
def ofTags (tags : List String) : ContainerMetadata := ofAttributes (tags.filterMap Meta.ofText?)

end ContainerMetadata

end PayloadSchema
