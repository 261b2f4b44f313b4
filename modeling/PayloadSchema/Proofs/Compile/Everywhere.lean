import PayloadSchema.Proofs.Compile.Discipline
import PayloadSchema.Proofs.Schema.Everywhere

/-!
# What holds everywhere in compiled schemas

A schema is made by one of the eight kinds of shapes, changed by the metadata of a field, taken apart where
a field is flattened, put into the cache and taken out again, or replaced by a placeholder. What holds of
every schema that is made of such schemas, and of the placeholders, holds of all that a call returns and
keeps, if it holds of the cache before (`compileRef_all`). Nothing is asked of the environment.

Most properties of interest look at the structure of a schema only, and are to hold at every depth
(`Structural`). Of these only records have to be looked at (`everywhere_build`).

* `CallsInside` — the calls that a call makes, however deep; before each of them the cache is as it should be;
* `run_wellFormed` — the shape of containers is right at every depth of what is returned and kept.
-/

namespace PayloadSchema

open Schema (Everywhere)

namespace Schema

/-! ## Properties of the structure -/

/-- Schemas with one structure: they differ in formats, bounds, listed values, and texts at most. -/
structure SameStructure (s s' : Schema) : Prop where
  kind : s'.kind = s.kind
  properties : s'.properties = s.properties
  required : s'.required = s.required
  items : s'.items = s.items
  additional : s'.additional = s.additional

/-- Schemas of one structure have the same schemas right inside. -/
theorem SameStructure.children_eq {s s' : Schema} (h : SameStructure s s') : s'.children = s.children := by
  unfold children
  rw [h.properties, h.items, h.additional]

theorem sameStructure_withDescription (s : Schema) (description : String) :
    SameStructure s (s.withDescription description) :=
  ⟨rfl, rfl, rfl, rfl, rfl⟩

/-- The constraints of a field change nothing of the structure. -/
theorem sameStructure_constrain (m : FieldMetadata) (s : Schema) : SameStructure s (m.constrain s) := by
  unfold FieldMetadata.constrain
  by_cases hguard : s.isGuardPlaceholder = true
  · simp only [hguard, if_true]
    exact ⟨rfl, rfl, rfl, rfl, rfl⟩
  · simp only [hguard]
    exact ⟨rfl, rfl, rfl, rfl, rfl⟩

/-- A property of schemas that looks at the structure only, and holds of what has no structure, of arrays,
of objects with free keys, and of objects that require nothing. -/
structure Structural (P : Schema → Prop) : Prop where
  congr : ∀ {s s' : Schema}, SameStructure s s' → P s → P s'
  plain : ∀ s : Schema, s.properties = none → s.required = none → s.items = none → s.additional = none → P s
  array : ∀ s, P (.array s)
  map : ∀ s, P (.map s)
  object : ∀ properties, P (.object properties [])

variable {P : Schema → Prop}

/-- What looks at the structure only holds at every depth of both of two schemas of one structure. -/
theorem Everywhere.congr (hP : Structural P) {s s' : Schema} (h : SameStructure s s')
    (hs : Everywhere P s) : Everywhere P s' := by
  refine .intro (hP.congr h hs.here) ?_
  rw [h.children_eq]
  exact hs.inside

/-- It holds at every depth of a schema with nothing inside. -/
theorem Structural.everywhere_plain (hP : Structural P) {s : Schema} (hproperties : s.properties = none)
    (hrequired : s.required = none) (hitems : s.items = none) (hadditional : s.additional = none) :
    Everywhere P s := by
  refine .intro (hP.plain s hproperties hrequired hitems hadditional) ?_
  intro t ht
  rw [mem_children_iff, hproperties, hitems, hadditional] at ht
  rcases ht with ⟨e, he, -⟩ | ht | ht
  · cases he
  · cases ht
  · cases ht

/-- It holds at every depth of an array if it does so of the elements. -/
theorem Structural.everywhere_array (hP : Structural P) {s : Schema} (hs : Everywhere P s) :
    Everywhere P (.array s) := by
  refine .intro (hP.array s) ?_
  intro t ht
  rcases mem_children_iff.1 ht with ⟨e, he, -⟩ | ht | ht
  · cases he
  · cases ht
    exact hs
  · cases ht

/-- It holds at every depth of an object with free keys if it does so of the values. -/
theorem Structural.everywhere_map (hP : Structural P) {s : Schema} (hs : Everywhere P s) :
    Everywhere P (.map s) := by
  refine .intro (hP.map s) ?_
  intro t ht
  rcases mem_children_iff.1 ht with ⟨e, he, -⟩ | ht | ht
  · cases he
  · cases ht
  · cases ht
    exact hs

/-- An object with properties has to be looked at itself, and then the properties. -/
theorem everywhere_object {properties : List (String × Schema)} {required : List String}
    (hhere : P (.object properties required)) (hinside : ∀ e ∈ properties, Everywhere P e.2) :
    Everywhere P (.object properties required) := by
  refine .intro hhere ?_
  intro t ht
  rcases mem_children_iff.1 ht with ⟨e, he, rfl⟩ | ht | ht
  · exact hinside e he
  · cases ht
  · cases ht

end Schema

open Schema (Structural SameStructure sameStructure_constrain sameStructure_withDescription
  everywhere_object)

namespace Compile

variable {ρ : Type}

/-! ## What a call returns and keeps -/

/-- Every cached schema has a property for each reference that may be looked up under its key. -/
def CachedFor (Reads : TypeRef ρ → String → Prop) (Q : TypeRef ρ → Schema → Prop) (cache : SchemaCache) :
    Prop :=
  ∀ key s, Dictionary.find? cache key = some s → ∀ t, Reads t key → Q t s

section

variable {Reads : TypeRef ρ → String → Prop} {Q : TypeRef ρ → Schema → Prop} {policy : RequiredPolicy}

theorem cachedFor_nil : CachedFor Reads Q [] := by
  intro key s hs
  cases hs

/-- What is kept is to have the property for each reference that may be looked up under its key. -/
theorem CachedFor.keep {cache : SchemaCache} (h : CachedFor Reads Q cache) {X : String} {s : Schema}
    (hs : ∀ t, Reads t (cacheKey policy X) → Q t s) : CachedFor Reads Q (keep policy X s cache) := by
  intro key s' hs' t ht
  by_cases hkey : key = cacheKey policy X
  · have hself := cached?_keep_self policy X s cache
    unfold cached? at hself
    rw [hkey, hself] at hs'
    cases hs'
    rw [hkey] at ht
    exact hs t ht
  · unfold Compile.keep at hs'
    rw [Dictionary.find?_insert_of_ne _ _ hkey] at hs'
    exact h key s' hs' t ht

/-- When an expansion ends its schema is kept, or the cache stays as it is. -/
theorem CachedFor.finish {session : Session ρ} (h : CachedFor Reads Q session.cache)
    {d : Descriptor (TypeRef ρ)} {s : Schema} (hs : ∀ t, Reads t (cacheKey policy d.identity) → Q t s)
    (outer : Context) : CachedFor Reads Q (finish policy d outer s session).cache := by
  by_cases hhits : session.context.guardHits = outer.guardHits
  · rw [finish_cache_of_eq s hhits]
    exact h.keep hs
  · rw [finish_cache_of_ne s hhits]
    exact h

/-- Answers given one after the other, if each call returns and keeps what has the property. -/
theorem askAll_each (env : Environment ρ) {ts : List (TypeRef ρ)} (session : Session ρ)
    (h : ∀ t ∈ ts, ∀ inside : Session ρ, SameDepth session.context inside.context →
      CachedFor Reads Q inside.cache →
        Q t (compileRef env policy t inside).1 ∧
          CachedFor Reads Q (compileRef env policy t inside).2.cache)
    (hcache : CachedFor Reads Q session.cache) :
    List.Forall₂ Q ts (askAll (compileRef env policy) ts session).1 ∧
      CachedFor Reads Q (askAll (compileRef env policy) ts session).2.cache := by
  induction ts generalizing session with
  | nil => exact ⟨.nil, hcache⟩
  | cons t ts ih =>
      obtain ⟨hfirst, hkept⟩ := h t List.mem_cons_self session ⟨rfl, rfl⟩ hcache
      -- The later parts are asked after the first, at the same depth, so the hypothesis still speaks of
      -- them.
      have hdepth := compileRef_depth env policy t session
      obtain ⟨hrest, hcache'⟩ := ih (compileRef env policy t session).2
        (fun u hu inside hinside => h u (List.mem_cons_of_mem t hu) inside (hdepth.trans hinside)) hkept
      rw [askAll_cons]
      exact ⟨.cons hfirst hrest, hcache'⟩

/-- What holds for a reference of the placeholders of its identity, and of the schemas made for it from
schemas of which it holds for the parts, holds of what a call returns and keeps, if it holds of what is cached
before. The references in question are to lead to references in question, and what holds for one of them
is to hold for each that may be looked up under the key that its descriptor is kept under. -/
theorem compileRef_each (env : Environment ρ) {R : TypeRef ρ → Prop}
    (hparts : ∀ t, R t → ∀ u ∈ (t.load env).shape.parts, R u)
    (hreads : ∀ t, R t → Reads t (cacheKey policy t.identity))
    (hcut : ∀ t (cut : Cut), R t → Q t (cut.placeholder t.identity))
    (hbuild : ∀ t, R t → ∀ answers, List.Forall₂ Q (t.load env).shape.parts answers →
      Q t (build env policy (t.load env) answers))
    (hshare : ∀ t, R t → ∀ u, Reads u (cacheKey policy (t.load env).identity) → ∀ s, Q t s → Q u s)
    (t : TypeRef ρ) (ht : R t) (session : Session ρ) (hcache : CachedFor Reads Q session.cache) :
    Q t (compileRef env policy t session).1 ∧
      CachedFor Reads Q (compileRef env policy t session).2.cache := by
  induction t, session using compileRef_induction env with
  | hcall t session ih =>
      cases hcached : cached? policy t.identity session.cache with
      | some s =>
          rw [compileRef_of_cached env hcached]
          exact ⟨hcache _ s hcached t (hreads t ht), hcache⟩
      | none =>
          cases hguard : cut? t.identity session.context with
          | some cut =>
              rw [compileRef_of_cut env hcached hguard]
              exact ⟨hcut t cut ht, hcache⟩
          | none =>
              -- what is made of the answers has the property, whether or not it is kept
              rw [compileRef_of_open env hcached hguard]
              obtain ⟨hanswers, hkept⟩ := askAll_each env (enterRef env t session)
                (fun u hu inside hinside => ih hguard u inside hinside (hparts t ht u hu)) hcache
              have hschema := hbuild t ht _ hanswers
              have hall : ∀ u, Reads u (cacheKey policy (t.load env).identity) → Q u _ :=
                fun u hu => hshare t ht u hu _ hschema
              exact ⟨hschema, hkept.finish hall _⟩

end

/-! ## What holds of all schemas -/

/-- Every cached schema has a property. -/
def AllCached (Q : Schema → Prop) (cache : SchemaCache) : Prop :=
  ∀ key s, Dictionary.find? cache key = some s → Q s

section

variable {Q : Schema → Prop} {policy : RequiredPolicy}

theorem allCached_nil : AllCached Q [] := by
  intro key s hs
  cases hs

/-- The same for any reference, under whichever key it is looked up. -/
theorem cachedFor_iff_allCached {cache : SchemaCache} :
    CachedFor (fun (_ : TypeRef ρ) _ => True) (fun _ => Q) cache ↔ AllCached Q cache := by
  constructor
  · intro h key s hs
    exact h key s hs default trivial
  · intro h key s hs _ _
    exact h key s hs

/-- A schema with the property may be kept. -/
theorem AllCached.keep {cache : SchemaCache} (h : AllCached Q cache) {s : Schema} (hs : Q s) (X : String) :
    AllCached Q (keep policy X s cache) := by
  have hfor : CachedFor (fun (_ : TypeRef Unit) _ => True) (fun _ => Q) cache := cachedFor_iff_allCached.2 h
  exact cachedFor_iff_allCached.1 (hfor.keep fun _ _ => hs)

/-- What holds of the placeholders, and of every schema made for a reference of a kind from schemas of which it
holds, holds of what a call for such a reference returns and keeps, if it holds of what is cached before.
The parts of a reference are to be of this kind again. -/
theorem compileRef_all_among (env : Environment ρ) (policy : RequiredPolicy) {R : TypeRef ρ → Prop}
    (hparts : ∀ t, R t → ∀ u ∈ (t.load env).shape.parts, R u)
    (hcut : ∀ (X : String) (cut : Cut), Q (cut.placeholder X))
    (hbuild : ∀ t, R t → ∀ answers : List Schema, (∀ s ∈ answers, Q s) →
      Q (build env policy (t.load env) answers))
    (t : TypeRef ρ) (ht : R t) (session : Session ρ) (hcache : AllCached Q session.cache) :
    Q (compileRef env policy t session).1 ∧ AllCached Q (compileRef env policy t session).2.cache := by
  have hbuild' : ∀ u, R u → ∀ answers, List.Forall₂ (fun _ => Q) (u.load env).shape.parts answers →
      Q (build env policy (u.load env) answers) := by
    intro u hu answers hanswers
    apply hbuild u hu answers
    intro s hs
    obtain ⟨_, -, hq⟩ := exists_right_of_mem hanswers.flip hs
    exact hq
  -- The case of `compileRef_each` in which the property does not look at the reference.
  have hcall : Q (compileRef env policy t session).1 ∧
      CachedFor (fun _ _ => True) (fun _ => Q) (compileRef env policy t session).2.cache :=
    compileRef_each env hparts (fun _ _ => trivial) (fun u cut _ => hcut u.identity cut) hbuild'
      (fun _ _ _ _ _ hs => hs) t ht session (cachedFor_iff_allCached.2 hcache)
  exact ⟨hcall.1, cachedFor_iff_allCached.1 hcall.2⟩

/-- What holds of the placeholders, and of every schema made of schemas of which it holds, holds of what a
call returns and keeps, if it holds of what is cached before. -/
theorem compileRef_all (env : Environment ρ) (policy : RequiredPolicy)
    (hcut : ∀ (X : String) (cut : Cut), Q (cut.placeholder X))
    (hbuild : ∀ (d : Descriptor (TypeRef ρ)) (answers : List Schema), (∀ s ∈ answers, Q s) →
      Q (build env policy d answers))
    (t : TypeRef ρ) (session : Session ρ) (hcache : AllCached Q session.cache) :
    Q (compileRef env policy t session).1 ∧ AllCached Q (compileRef env policy t session).2.cache :=
  compileRef_all_among (R := fun _ => True) env policy (fun _ _ _ _ => trivial) hcut
    (fun t _ => hbuild (t.load env)) t trivial session hcache

/-- A call that expands its reference calls for a part, after it has been given the schemas of the parts
before. -/
inductive Asks (env : Environment ρ) (policy : RequiredPolicy) :
    TypeRef ρ × Session ρ → TypeRef ρ × Session ρ → Prop where
  | part {t u : TypeRef ρ} {session : Session ρ} {before after : List (TypeRef ρ)}
      (hcached : cached? policy t.identity session.cache = none)
      (hopen : cut? t.identity session.context = none)
      (hparts : (t.load env).shape.parts = before ++ u :: after) :
      Asks env policy (t, session) (u, (askAll (compileRef env policy) before (enterRef env t session)).2)

/-- The calls inside a call, however deep, and itself. -/
abbrev CallsInside (env : Environment ρ) (policy : RequiredPolicy) :
    TypeRef ρ × Session ρ → TypeRef ρ × Session ρ → Prop :=
  Relation.ReflTransGen (Asks env policy)

end

section

variable {env : Environment ρ} {policy : RequiredPolicy} {Reads : TypeRef ρ → String → Prop}
  {Q : TypeRef ρ → Schema → Prop} {R : TypeRef ρ → Prop} {outer inner : TypeRef ρ × Session ρ}

/-- The calls inside a call for a reference of a kind are for such references, and what holds of all that is
cached before the call holds of all that is cached before each of them. -/
theorem CallsInside.cachedFor (h : CallsInside env policy outer inner)
    (hparts : ∀ t, R t → ∀ u ∈ (t.load env).shape.parts, R u)
    (hcall : ∀ t, R t → ∀ session : Session ρ, CachedFor Reads Q session.cache →
      Q t (compileRef env policy t session).1 ∧
        CachedFor Reads Q (compileRef env policy t session).2.cache)
    (houter : R outer.1) (hcache : CachedFor Reads Q outer.2.cache) :
    R inner.1 ∧ CachedFor Reads Q inner.2.cache := by
  induction h with
  | refl => exact ⟨houter, hcache⟩
  | tail _ hasks ih =>
      obtain ⟨hmiddle, hinside⟩ := ih
      -- A call made inside starts from the cache its elder siblings leave, so those are answered first.
      cases hasks with
      | @part t u session before after _ _ hsplit =>
          have hall : ∀ v ∈ before ++ u :: after, R v := by
            intro v hv
            rw [← hsplit] at hv
            exact hparts t hmiddle v hv
          have hbefore : ∀ v ∈ before, R v := fun v hv => hall v (List.mem_append_left _ hv)
          have hasked := askAll_each env (enterRef env t session)
            (fun v hv inside _ => hcall v (hbefore v hv) inside) hinside
          exact ⟨hall u (List.mem_append_right _ List.mem_cons_self), hasked.2⟩

end

/-! ## Schemas of shapes -/

section

variable {P : Schema → Prop}

/-- The placeholders have no structure. -/
theorem everywhere_placeholder (hP : Structural P) (X : String) (cut : Cut) :
    Everywhere P (cut.placeholder X) := by
  cases cut with
  | circle => exact hP.everywhere_plain rfl rfl rfl rfl
  | depth => exact hP.everywhere_plain rfl rfl rfl rfl

theorem everywhere_ofScalar (hP : Structural P) (s : Scalar) : Everywhere P (ofScalar s) := by
  cases s with
  | integer unsigned => cases unsigned <;> exact hP.everywhere_plain rfl rfl rfl rfl
  | _ => exact hP.everywhere_plain rfl rfl rfl rfl

/-- A flattened field gives its properties to the record, any other one becomes a property. -/
theorem everywhere_add (hP : Structural P) {m : Members} (policy : RequiredPolicy) (casing : Option Casing)
    (field : Field (TypeRef ρ)) {s : Schema} (hm : ∀ e ∈ m.properties, Everywhere P e.2)
    (hs : Everywhere P s) :
    ∀ e ∈ (m.add policy casing field s).properties, Everywhere P e.2 := by
  intro e he
  unfold Members.add at he
  split at he
  · next properties _ hproperties =>
    -- what is taken out of a schema is one of its children
    rcases Dictionary.mem_of_mem_insertAll he with he | he
    · exact hs.inside e.2 (Schema.mem_children_of_mem_properties hproperties he)
    · exact hm e he
  · rcases Dictionary.mem_of_mem_insert he with rfl | he
    · exact hs.congr hP (sameStructure_constrain field.metadata s)
    · exact hm e he

/-- The properties of a record are made of the answers for its fields. -/
theorem everywhere_assembleMembers (hP : Structural P) (policy : RequiredPolicy) (casing : Option Casing)
    (fields : List (Field (TypeRef ρ))) {answers : List Schema} (hanswers : ∀ s ∈ answers, Everywhere P s)
    {m : Members} (hm : ∀ e ∈ m.properties, Everywhere P e.2) :
    ∀ e ∈ (assembleMembers policy casing fields answers m).properties, Everywhere P e.2 :=
  assembleMembers_preserves (P := fun m => ∀ e ∈ m.properties, Everywhere P e.2)
    (fun field _ s hs _ hm => everywhere_add hP policy casing field hm (hanswers s hs)) hm

/-- The properties of an enumeration are the answers for its payloads. -/
theorem everywhere_assembleProperties (variants : List (Variant (TypeRef ρ))) {answers : List Schema}
    (hanswers : ∀ s ∈ answers, Everywhere P s) {properties : Dictionary Schema}
    (hproperties : ∀ e ∈ properties, Everywhere P e.2) :
    ∀ e ∈ assembleProperties variants answers properties, Everywhere P e.2 := by
  refine assembleProperties_preserves (P := fun d => ∀ e ∈ d, Everywhere P e.2) ?_ hproperties
  intro v _ s hs d hd e he
  rcases Dictionary.mem_of_mem_insert he with rfl | he
  · exact hanswers s hs
  · exact hd e he

/-- The schema of a descriptor from answers that have a property at every depth has it at every depth, if
the property holds of records made of such answers. -/
theorem everywhere_build (hP : Structural P) (env : Environment ρ) (policy : RequiredPolicy)
    (hrecord : ∀ (casing : Option Casing) (fields : List (Field (TypeRef ρ))) (answers : List Schema),
      (∀ s ∈ answers, Everywhere P s) →
        P (.object (assembleMembers policy casing fields answers {}).properties
          (assembleMembers policy casing fields answers {}).required))
    (d : Descriptor (TypeRef ρ)) (answers : List Schema) (hanswers : ∀ s ∈ answers, Everywhere P s) :
    Everywhere P (build env policy d answers) := by
  have hfirst : Everywhere P (answers.headD {}) := by
    cases answers with
    | nil => exact hP.everywhere_plain rfl rfl rfl rfl
    | cons s answers => exact hanswers s List.mem_cons_self
  have hshape : Everywhere P (assemble policy (hasTextKey env d.shape) d.shape answers) := by
    cases d.shape with
    | scalar s => exact everywhere_ofScalar hP s
    | record fields casing =>
        refine everywhere_object (hrecord casing _ answers hanswers) ?_
        refine everywhere_assembleMembers hP policy casing _ hanswers ?_
        intro e he
        cases he
    | list element => exact hP.everywhere_array hfirst
    | map key value =>
        -- a remark on the keys is no part of the structure either
        have hmap := hP.everywhere_map hfirst
        dsimp only [assemble]
        split
        · exact hmap
        · exact hmap.congr hP (sameStructure_withDescription _ _)
    | pointer target optional => exact hfirst
    | enumeration variants =>
        dsimp only [assemble]
        split
        · exact hP.everywhere_plain rfl rfl rfl rfl
        · refine Everywhere.congr hP (sameStructure_withDescription _ _) ?_
          refine everywhere_object (hP.object _) (everywhere_assembleProperties _ hanswers ?_)
          intro e he
          cases he
    | dynamic => exact hP.everywhere_plain rfl rfl rfl rfl
    | unsupported reason => exact hP.everywhere_plain rfl rfl rfl rfl
  -- the description that is added in the end is no part of the structure
  have hdescribe : SameStructure (assemble policy (hasTextKey env d.shape) d.shape answers)
      (build env policy d answers) := ⟨rfl, rfl, rfl, rfl, rfl⟩
  exact hshape.congr hP hdescribe

end

end Compile

/-! ## The shape of containers -/

namespace Schema

/-- An object with properties has neither elements nor free keys. -/
theorem containerShape_object (properties : List (String × Schema)) (required : List String) :
    ContainerShape (.object properties required) := by
  constructor
  · intro hsome
    cases hsome
  · intro hsome
    cases hsome

/-- The shape of a container is a matter of its structure. -/
theorem structural_containerShape : Structural ContainerShape where
  congr h hs := by
    constructor
    · rw [h.items, h.kind]
      exact hs.items
    · rw [h.additional, h.kind]
      exact hs.additional
  plain s _ _ hitems hadditional := by
    constructor
    · intro hsome
      rw [hitems] at hsome
      cases hsome
    · intro hsome
      rw [hadditional] at hsome
      cases hsome
  array s := by
    constructor
    · intro _
      rfl
    · intro hsome
      cases hsome
  map s := by
    constructor
    · intro hsome
      cases hsome
    · intro _
      rfl
  object properties := containerShape_object properties []

/-- Whether a schema is well-formed is a matter of its structure. -/
theorem wellFormed_eq_of_sameStructure {s s' : Schema} (h : SameStructure s s') :
    s'.wellFormed = s.wellFormed := by
  have hsymm : SameStructure s' s :=
    ⟨h.kind.symm, h.properties.symm, h.required.symm, h.items.symm, h.additional.symm⟩
  rw [Bool.eq_iff_iff, wellFormed_iff_everywhere, wellFormed_iff_everywhere]
  exact ⟨Everywhere.congr structural_containerShape hsymm, Everywhere.congr structural_containerShape h⟩

end Schema

namespace Compile

variable {ρ : Type}

open Schema (ContainerShape containerShape_object structural_containerShape wellFormed_iff_everywhere)

/-- **The shape of containers.** For any environment, policy and context and a cache of well-formed schemas:
what a call returns is well-formed, at every depth there are elements only in arrays, free keys only in
objects and never both, and every schema that is cached afterwards is well-formed. The constraints of a
field change nothing about it, and neither what becomes a property nor what is taken from a flattened field
breaks it. -/
theorem run_wellFormed (env : Environment ρ) (policy : RequiredPolicy) (r : Request ρ)
    (session : Session ρ)
    (hcache : ∀ key s, Dictionary.find? session.cache key = some s → s.wellFormed = true) :
    (r.run env policy session).1.wellFormed = true ∧
    (r.run env policy session).1.Everywhere (fun s =>
      (s.items.isSome = true → s.kind = some .array) ∧
      (s.additional.isSome = true → s.kind = some .object) ∧
      ¬ (s.items.isSome = true ∧ s.additional.isSome = true)) ∧
    (∀ key s, Dictionary.find? (r.run env policy session).2.cache key = some s → s.wellFormed = true) ∧
    (∀ (m : FieldMetadata) (s : Schema), (m.constrain s).wellFormed = s.wellFormed) ∧
    (∀ (m : Members) (casing : Option Casing) (field : Field (TypeRef ρ)) (s : Schema),
      (∀ e ∈ m.properties, e.2.wellFormed = true) → s.wellFormed = true →
        ∀ e ∈ (m.add policy casing field s).properties, e.2.wellFormed = true) := by
  have hcontainers : AllCached (Everywhere ContainerShape) session.cache :=
    fun key s hs => wellFormed_iff_everywhere.1 (hcache key s hs)
  -- Every container shape is one the compiler writes, so the property holds at each node of the answer and
  -- of the cache.
  obtain ⟨hreturned, hkept⟩ := compileRef_all env policy
    (everywhere_placeholder structural_containerShape)
    (everywhere_build structural_containerShape env policy
      fun _ _ _ _ => containerShape_object _ _)
    r.root session hcontainers
  rw [Request.run_eq]
  refine ⟨wellFormed_iff_everywhere.2 hreturned, ?_, ?_, ?_, ?_⟩
  · exact hreturned.mono fun s hs => ⟨hs.items, hs.additional, hs.not_both⟩
  · intro key s hs
    exact wellFormed_iff_everywhere.2 (hkept key s hs)
  · intro m s
    exact Schema.wellFormed_eq_of_sameStructure (sameStructure_constrain m s)
  · intro m casing field s hm hs e he
    have hadd := everywhere_add structural_containerShape policy casing field
      (fun e he => wellFormed_iff_everywhere.1 (hm e he)) (wellFormed_iff_everywhere.1 hs)
    exact wellFormed_iff_everywhere.2 (hadd e he)

/-- The schema of a tree is well-formed where a text is cached, and so is what is cached then. -/
theorem run_wellFormed_tree :
    (∀ key s, Dictionary.find? [("string", ofScalar .text)] key = some s → s.wellFormed = true) ∧
      (compileRef Tree.env .tagged Tree.self (fresh 3 [("string", ofScalar .text)])).1.wellFormed = true ∧
      ∀ key s, Dictionary.find?
        (compileRef Tree.env .tagged Tree.self (fresh 3 [("string", ofScalar .text)])).2.cache key = some s →
          s.wellFormed = true := by
  have hcache : AllCached (fun s => s.wellFormed = true) (keep .tagged "string" (ofScalar .text) []) :=
    AllCached.keep (Q := fun s => s.wellFormed = true) allCached_nil rfl "string"
  obtain ⟨hreturned, -, hkept, -, -⟩ :=
    run_wellFormed Tree.env .tagged (.reference Tree.self) (fresh 3 [("string", ofScalar .text)]) hcache
  exact ⟨hcache, hreturned, hkept⟩

end Compile

end PayloadSchema
