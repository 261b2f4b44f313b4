import PayloadSchema.Compile.Context

/-!
# Compiling descriptors to schemas

The schema of a reference is taken from the cache, or cut off by a guard, or else the descriptor is loaded
and expanded. The guards are, in this order: the identity is being expanded already, and the depth limit
is reached. An expansion during which no guard fired is kept in the cache.

An expansion is entered only below the depth limit, so the levels that are left bound the recursion
(`compileRefWithin`): with that many levels or more the guard always answers before they run out.

* `compile`, `compileRef` — the schema of a descriptor and of a reference.
-/

namespace PayloadSchema

namespace Compile

variable {ρ : Type}

/-! ## Schemas of shapes without references -/

def formatted (format : String) : Schema := { kind := some .string, format := some format }

def ofScalar : Scalar → Schema
  | .text => .ofKind .string
  | .character => { kind := some .string, minLength := some 1, maxLength := some 1 }
  | .boolean => .ofKind .boolean
  | .integer true => { kind := some .integer, minimum := some .zero }
  | .integer false => .ofKind .integer
  | .real => .ofKind .number
  | .instant => formatted "date-time"
  | .date => formatted "date"
  | .uuid => formatted "uuid"

/-- The schema of an enumeration without payloads: the names of the variants. -/
def ofNames (names : List String) : Schema :=
  { kind := some .string, allowed := some (names.map .string) }

/-- The description of an enumeration with payloads, given the names of the variants without. -/
def enumerationText (names : List String) : String :=
  "exactly one of the listed properties is present" ++
    (if names = [] then ""
     else ", or the value is one of the strings: " ++ ", ".intercalate names)

/-- The description of a map whose keys are no texts. -/
def keyText (identity : String) : String :=
  "unsupported map key type `" ++ identity ++ "`: keys are not strings"

/-! ## Records -/

/-- The properties of a record so far, and the names of those that are required, in order. -/
structure Members where
  properties : Dictionary Schema := []
  required : List String := []

/-- The required names with another one, which is there once. -/
def addRequired (required : List String) (name : String) : List String :=
  if required.contains name then required else required ++ [name]

/-- The members after the properties of a flattened field. What the field may lack is not required. -/
def Members.merge (m : Members) (properties : List (String × Schema)) (required : List String)
    (lacking : Bool) : Members :=
  { properties := m.properties.insertAll properties
    required := if lacking then m.required else required.foldl addRequired m.required }

/-- The members after a field, given the schema of its type. -/
def Members.add (m : Members) (policy : RequiredPolicy) (casing : Option Casing)
    (field : Field (TypeRef ρ)) (s : Schema) : Members :=
  match field.metadata.flatten, s.properties with
  | true, some properties =>
    m.merge properties (s.required.getD []) (field.optional || field.metadata.omitEmpty)
  | _, _ =>
    let name := field.metadata.wireName field.name casing
    { properties := m.properties.insert name (field.metadata.constrain s)
      required :=
        if field.metadata.isRequired field.optional policy then addRequired m.required name
        else m.required }

/-! ## Expansion -/

/-- How the schemas of nested references are found. -/
abbrev Inner (ρ : Type) := TypeRef ρ → Session ρ → Schema × Session ρ

/-- The members of a record from its fields; ignored fields are passed over. -/
def expandFields (policy : RequiredPolicy) (casing : Option Casing) (inner : Inner ρ) :
    List (Field (TypeRef ρ)) → Members → Session ρ → Members × Session ρ
  | [], members, session => (members, session)
  | field :: fields, members, session =>
    if field.metadata.ignore then expandFields policy casing inner fields members session
    else
      let (s, session) := inner field.type session
      expandFields policy casing inner fields (members.add policy casing field s) session

/-- The properties of an enumeration from its variants with payloads. -/
def expandVariants (inner : Inner ρ) :
    List (Variant (TypeRef ρ)) → Dictionary Schema → Session ρ → Dictionary Schema × Session ρ
  | [], properties, session => (properties, session)
  | ⟨_, none⟩ :: variants, properties, session => expandVariants inner variants properties session
  | ⟨name, some payload⟩ :: variants, properties, session =>
    let (s, session) := inner payload session
    expandVariants inner variants (properties.insert name s) session

/-- The schema of a map: its values, and a remark if the keys are no texts. -/
def expandMap (env : Environment ρ) (inner : Inner ρ) (key value : TypeRef ρ) (session : Session ρ) :
    Schema × Session ρ :=
  let (values, session) := inner value session
  let (isKey, loads) := (key.load env).textKey env
  let s := Schema.map values
  (if isKey then s else s.withDescription (keyText key.identity),
    { session with loads := loads ++ key.loads ++ session.loads })

def expandShape (env : Environment ρ) (policy : RequiredPolicy) (inner : Inner ρ) :
    Shape (TypeRef ρ) → Session ρ → Schema × Session ρ
  | .scalar s, session => (ofScalar s, session)
  | .record fields casing, session =>
    let (members, session) := expandFields policy casing inner fields {} session
    (.object members.properties members.required, session)
  | .list element, session =>
    let (s, session) := inner element session
    (.array s, session)
  | .map key value, session => expandMap env inner key value session
  | .pointer target _, session => inner target session
  | .enumeration variants, session =>
    if variants.all (·.payload.isNone) then (ofNames (variants.map (·.name)), session)
    else
      let (properties, session) := expandVariants inner variants [] session
      let names := (variants.filter (·.payload.isNone)).map (·.name)
      ((Schema.object properties []).withDescription (enumerationText names), session)
  | .dynamic, session => (.dynamic, session)
  | .unsupported reason, session => (.annotated ("unsupported type: " ++ reason), session)

/-- A schema with a description, unless it has one. -/
def describe (s : Schema) (description : Option String) : Schema :=
  { s with description := s.description.or description }

/-- The schema of a descriptor. It is kept if no guard fired inside. -/
def expand (env : Environment ρ) (policy : RequiredPolicy) (inner : Inner ρ)
    (d : Descriptor (TypeRef ρ)) (session : Session ρ) : Schema × Session ρ :=
  let outer := session.context
  let (s, session) := expandShape env policy inner d.shape { session with context := outer.enter d }
  let s := describe s d.description
  let context := session.context.leave d outer.modulePath
  let cache :=
    if context.guardHits = outer.guardHits then
      Dictionary.insert session.cache (cacheKey policy d.identity) s
    else session.cache
  (s, { session with context, cache })

/-- What stands for an identity without expanding it: a cached schema, or a placeholder where a guard
fires. -/
def guard? (policy : RequiredPolicy) (identity : String) (session : Session ρ) :
    Option (Schema × Session ρ) :=
  let hit := { session with context := session.context.hit }
  match Dictionary.find? session.cache (cacheKey policy identity) with
  | some s => some (s, session)
  | none =>
    if session.context.visited.contains identity then some (.circular identity, hit)
    else if session.context.maxDepth ≤ session.context.depth then some (.depthReached, hit)
    else none

/-- The schema of a reference, where at most so many expansions may be open. -/
def compileRefWithin (env : Environment ρ) (policy : RequiredPolicy) : Nat → Inner ρ
  | 0, t, session =>
    (guard? policy t.identity session).getD
      (.depthReached, { session with context := session.context.hit })
  | levels + 1, t, session =>
    match guard? policy t.identity session with
    | some answer => answer
    | none =>
      expand env policy (compileRefWithin env policy levels) (t.load env)
        { session with loads := t.loads ++ session.loads }

/-- How many more expansions may be open. -/
def levels (session : Session ρ) : Nat := session.context.maxDepth - session.context.depth

end Compile

open Compile

variable {ρ : Type}

/-- The schema of a reference. -/
def compileRef (env : Environment ρ) (policy : RequiredPolicy) (t : TypeRef ρ) (session : Session ρ) :
    Schema × Session ρ :=
  compileRefWithin env policy (levels session) t session

/-- The schema of a descriptor. -/
def compile (env : Environment ρ) (policy : RequiredPolicy) (d : Descriptor (TypeRef ρ))
    (session : Session ρ) : Schema × Session ρ :=
  compileRef env policy (.ready d) session

end PayloadSchema
