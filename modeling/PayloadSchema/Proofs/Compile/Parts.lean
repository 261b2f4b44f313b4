import PayloadSchema.Compile.Basic

/-!
# The parts of a shape

An expansion asks for the schemas of some references in a fixed order, the *parts* of the shape, and makes
its own schema of the answers. Everything an expansion does to the session is done by what it asks for,
except that a map loads its key to see whether it is a text.

* `expandShape_eq` — an expansion asks for the parts in order and assembles the answers;
* `expand_eq` — so does the expansion of a descriptor, which then leaves the context and keeps the schema.
-/

namespace PayloadSchema

namespace Shape

variable {τ : Type}

/-- The references whose schemas an expansion asks for, in order: the fields that are not ignored, the
element, the values under free keys, the target, the payloads. -/
def parts : Shape τ → List τ
  | record fields _ => (fields.filter fun field => !field.metadata.ignore).map (·.type)
  | list element => [element]
  | map _ value => [value]
  | pointer target _ => [target]
  | enumeration variants => variants.filterMap (·.payload)
  | _ => []

/-- The references that a shape leads to: its parts, and the key of a map, which is loaded though no schema
is asked for. -/
def mentions : Shape τ → List τ
  | map key value => [key, value]
  | shape => shape.parts

/-- Whatever a schema is asked for is mentioned. -/
theorem mem_mentions_of_mem_parts {shape : Shape τ} {t : τ} (h : t ∈ shape.parts) :
    t ∈ shape.mentions := by
  cases shape with
  | map key value => exact List.mem_cons_of_mem key h
  | _ => exact h

/-- All references of a shape, those of ignored fields included. -/
def references : Shape τ → List τ
  | record fields _ => fields.map (·.type)
  | shape => shape.mentions

/-- Whatever a schema is asked for is a reference of the shape. -/
theorem mem_references_of_mem_parts {shape : Shape τ} {t : τ} (h : t ∈ shape.parts) :
    t ∈ shape.references := by
  cases shape with
  | record fields casing =>
      obtain ⟨field, hfield, rfl⟩ := List.mem_map.1 h
      exact List.mem_map_of_mem (List.mem_filter.1 hfield).1
  | _ => exact mem_mentions_of_mem_parts h

end Shape

namespace Compile

variable {ρ : Type}

/-! ## Asking in order -/

/-- The schemas of references, asked for one after the other. -/
def askAll (inner : Inner ρ) : List (TypeRef ρ) → Session ρ → List Schema × Session ρ
  | [], session => ([], session)
  | t :: ts, session =>
    let answer := inner t session
    let answers := askAll inner ts answer.2
    (answer.1 :: answers.1, answers.2)

@[simp] theorem askAll_nil (inner : Inner ρ) (session : Session ρ) :
    askAll inner [] session = ([], session) := rfl

theorem askAll_cons (inner : Inner ρ) (t : TypeRef ρ) (ts : List (TypeRef ρ)) (session : Session ρ) :
    askAll inner (t :: ts) session =
      ((inner t session).1 :: (askAll inner ts (inner t session).2).1,
        (askAll inner ts (inner t session).2).2) := rfl

/-- To ask for two lists is to ask for the one and then for the other. -/
theorem askAll_append (inner : Inner ρ) (ts us : List (TypeRef ρ)) (session : Session ρ) :
    (askAll inner (ts ++ us) session).2 = (askAll inner us (askAll inner ts session).2).2 := by
  induction ts generalizing session with
  | nil => rfl
  | cons t ts ih => exact ih _

/-- The answer for a reference is among the answers, given when those before it have been given. -/
theorem mem_askAll (inner : Inner ρ) (before after : List (TypeRef ρ)) (t : TypeRef ρ)
    (session : Session ρ) :
    (inner t (askAll inner before session).2).1 ∈ (askAll inner (before ++ t :: after) session).1 := by
  induction before generalizing session with
  | nil => exact List.mem_cons_self
  | cons u before ih => exact List.mem_cons_of_mem _ (ih _)

/-- There is an answer for each reference. -/
theorem length_askAll (inner : Inner ρ) (ts : List (TypeRef ρ)) (session : Session ρ) :
    (askAll inner ts session).1.length = ts.length := by
  induction ts generalizing session with
  | nil => rfl
  | cons t ts ih => rw [askAll_cons, List.length_cons, List.length_cons, ih]

/-- What every answer does to the session, all of them do. -/
theorem askAll_preserves {P : Session ρ → Prop} (inner : Inner ρ) (ts : List (TypeRef ρ))
    (hstep : ∀ t ∈ ts, ∀ session, P session → P (inner t session).2) :
    ∀ session, P session → P (askAll inner ts session).2 := by
  induction ts with
  | nil =>
      intro session h
      exact h
  | cons t ts ih =>
      obtain ⟨hhead, hrest⟩ := List.forall_mem_cons.1 hstep
      intro session h
      exact ih hrest _ (hhead session h)

/-- Answers that leave the session alone are the answers one by one. -/
theorem askAll_pure (answer : TypeRef ρ → Schema) (ts : List (TypeRef ρ)) (session : Session ρ) :
    askAll (fun t session => (answer t, session)) ts session = (ts.map answer, session) := by
  induction ts with
  | nil => rfl
  | cons t ts ih => rw [askAll_cons, ih, List.map_cons]

/-! ## Assembling the answers -/

/-- The members of a record from the answers for fields. -/
def assembleMembers (policy : RequiredPolicy) (casing : Option Casing) (fields : List (Field (TypeRef ρ)))
    (answers : List Schema) (members : Members) : Members :=
  (fields.zip answers).foldl (fun m entry => m.add policy casing entry.1 entry.2) members

/-- The properties of an enumeration from the answers for variants. -/
def assembleProperties (variants : List (Variant (TypeRef ρ))) (answers : List Schema)
    (properties : Dictionary Schema) : Dictionary Schema :=
  (variants.zip answers).foldl (fun d entry => d.insert entry.1.name entry.2) properties

/-- What no field of a record breaks when its answer is added, all of them keep. -/
theorem assembleMembers_preserves {P : Members → Prop} {policy : RequiredPolicy} {casing : Option Casing}
    {fields : List (Field (TypeRef ρ))} {answers : List Schema}
    (hstep : ∀ field ∈ fields, ∀ s ∈ answers, ∀ m, P m → P (m.add policy casing field s))
    {members : Members} (h : P members) : P (assembleMembers policy casing fields answers members) := by
  refine List.foldlRecOn (fields.zip answers) _ h ?_
  intro m hm entry hentry
  obtain ⟨hfield, hs⟩ := List.of_mem_zip hentry
  exact hstep entry.1 hfield entry.2 hs m hm

/-- What no answer for a variant breaks when it is put in under the variant's name, all of them keep. -/
theorem assembleProperties_preserves {P : Dictionary Schema → Prop} {variants : List (Variant (TypeRef ρ))}
    {answers : List Schema}
    (hstep : ∀ v ∈ variants, ∀ s ∈ answers, ∀ properties : Dictionary Schema, P properties →
      P (properties.insert v.name s))
    {properties : Dictionary Schema} (h : P properties) : P (assembleProperties variants answers properties) := by
  refine List.foldlRecOn (variants.zip answers) _ h ?_
  intro d hd entry hentry
  obtain ⟨hv, hs⟩ := List.of_mem_zip hentry
  exact hstep entry.1 hv entry.2 hs d hd

/-- The schema of a shape from the answers for its parts, given whether the key of a map is a text. -/
def assemble (policy : RequiredPolicy) (isKey : Bool) : Shape (TypeRef ρ) → List Schema → Schema
  | .scalar s, _ => ofScalar s
  | .record fields casing, answers =>
    let members :=
      assembleMembers policy casing (fields.filter fun field => !field.metadata.ignore) answers {}
    .object members.properties members.required
  | .list _, answers => .array (answers.headD {})
  | .map key _, answers =>
    let s := Schema.map (answers.headD {})
    if isKey then s else s.withDescription (keyText key.identity)
  | .pointer _ _, answers => answers.headD {}
  | .enumeration variants, answers =>
    if variants.all (·.payload.isNone) then ofNames (variants.map (·.name))
    else
      (Schema.object (assembleProperties (variants.filter (·.payload.isSome)) answers []) [])
        |>.withDescription (enumerationText ((variants.filter (·.payload.isNone)).map (·.name)))
  | .dynamic, _ => .dynamic
  | .unsupported reason, _ => .annotated ("unsupported type: " ++ reason)

/-- Whether the key of a map is a text; true where there is no key. -/
def hasTextKey (env : Environment ρ) : Shape (TypeRef ρ) → Bool
  | .map key _ => (key.load env).isTextKey env
  | _ => true

/-- The handles that are loaded to look at the key of a map, latest first. -/
def keyLoads (env : Environment ρ) : Shape (TypeRef ρ) → List ρ
  | .map key _ => ((key.load env).textKey env).2 ++ key.loads
  | _ => []

/-- The fields of a record are expanded by asking for the types of those that are not ignored. -/
theorem expandFields_eq (policy : RequiredPolicy) (casing : Option Casing) (inner : Inner ρ)
    (fields : List (Field (TypeRef ρ))) (members : Members) (session : Session ρ) :
    expandFields policy casing inner fields members session =
      let kept := fields.filter fun field => !field.metadata.ignore
      let asked := askAll inner (kept.map (·.type)) session
      (assembleMembers policy casing kept asked.1 members, asked.2) := by
  induction fields generalizing members session with
  | nil => rfl
  | cons field fields ih =>
      by_cases hignore : field.metadata.ignore
      · rw [expandFields, if_pos hignore, ih]
        simp [hignore]
      · rw [expandFields, if_neg hignore]
        simp [hignore, ih, askAll_cons, assembleMembers]

/-- The variants of an enumeration are expanded by asking for their payloads. -/
theorem expandVariants_eq (inner : Inner ρ) (variants : List (Variant (TypeRef ρ)))
    (properties : Dictionary Schema) (session : Session ρ) :
    expandVariants inner variants properties session =
      let asked := askAll inner (variants.filterMap (·.payload)) session
      (assembleProperties (variants.filter (·.payload.isSome)) asked.1 properties, asked.2) := by
  induction variants generalizing properties session with
  | nil => rfl
  | cons v variants ih =>
      rcases v with ⟨name, payload⟩
      -- A variant without payload asks nothing and adds no property, so it drops out of both sides.
      cases payload with
      | none =>
          rw [expandVariants, ih]
          simp
      | some payload =>
          rw [expandVariants]
          simp [ih, askAll_cons, assembleProperties]

/-- An expansion asks for the parts in order and assembles the answers. -/
theorem expandShape_eq (env : Environment ρ) (policy : RequiredPolicy) (inner : Inner ρ)
    (shape : Shape (TypeRef ρ)) (session : Session ρ) :
    expandShape env policy inner shape session =
      let asked := askAll inner shape.parts session
      (assemble policy (hasTextKey env shape) shape asked.1,
        { asked.2 with loads := keyLoads env shape ++ asked.2.loads }) := by
  cases shape with
  | record fields casing =>
      rw [expandShape, expandFields_eq]
      rfl
  | map key value =>
      simp [expandShape, expandMap, Shape.parts, askAll_cons, assemble, hasTextKey, keyLoads,
        Descriptor.isTextKey]
  | enumeration variants =>
      by_cases hnone : variants.all (·.payload.isNone)
      · -- no variant has a payload, so that nothing is asked for
        have hparts : variants.filterMap (·.payload) = [] := by
          rw [List.filterMap_eq_nil_iff]
          intro v hv
          exact Option.isNone_iff_eq_none.1 (List.all_eq_true.1 hnone v hv)
        simp [expandShape, Shape.parts, assemble, hnone, hparts, keyLoads]
      · rw [expandShape, if_neg hnone, expandVariants_eq]
        simp only [assemble, if_neg hnone]
        rfl
  | _ => rfl

/-! ## The expansion of a descriptor -/

/-- The schema of a descriptor from the answers for the parts of its shape. -/
def build (env : Environment ρ) (policy : RequiredPolicy) (d : Descriptor (TypeRef ρ))
    (answers : List Schema) : Schema :=
  describe (assemble policy (hasTextKey env d.shape) d.shape answers) d.description

/-- The session when an expansion ends, given the context outside: the context is left, and the schema is
kept if no guard fired inside. -/
def finish (policy : RequiredPolicy) (d : Descriptor (TypeRef ρ)) (outer : Context) (s : Schema)
    (session : Session ρ) : Session ρ :=
  { session with
    context := session.context.leave d outer.modulePath
    cache :=
      if session.context.guardHits = outer.guardHits then
        Dictionary.insert session.cache (cacheKey policy d.identity) s
      else session.cache }

/-- The session inside the expansion of a reference. -/
def enterRef (env : Environment ρ) (t : TypeRef ρ) (session : Session ρ) : Session ρ :=
  { session with context := session.context.enter (t.load env), loads := t.loads ++ session.loads }

/-- The session with the loads that the key of a map needs. -/
def noteKey (env : Environment ρ) (shape : Shape (TypeRef ρ)) (session : Session ρ) : Session ρ :=
  { session with loads := keyLoads env shape ++ session.loads }

/-- The expansion of a descriptor is entered, asks for the parts, builds the schema, and ends. -/
theorem expand_eq (env : Environment ρ) (policy : RequiredPolicy) (inner : Inner ρ) (t : TypeRef ρ)
    (session : Session ρ) :
    expand env policy inner (t.load env) { session with loads := t.loads ++ session.loads } =
      let asked := askAll inner (t.load env).shape.parts (enterRef env t session)
      let s := build env policy (t.load env) asked.1
      (s, finish policy (t.load env) session.context s (noteKey env (t.load env).shape asked.2)) := by
  rw [expand, expandShape_eq]
  rfl

end Compile

end PayloadSchema
