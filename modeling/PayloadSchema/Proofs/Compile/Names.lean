import PayloadSchema.Proofs.Compile.Members

/-!
# The names of properties

Which properties the schema of a reference has depends on the call: where the type of a flattened field is cut
off there is nothing to merge, and the field becomes a property of its own; and what is answered from the cache
may be the schema of another reference. So the names in question are collected over all of this
(`TypeGraph.MayName`). Whatever calls have filled the cache, a schema has no other names than these
(`Filled.named`). If no two fields of a record may contribute one name (`TypeGraph.Distinct`), then no two
fields ever do, wherever guards fire (`TypeGraph.Distinct.distinctNames`).

For a list of references the condition is checked by a table of names (`TypeGraph.distinct_ofList`).
-/

namespace PayloadSchema

open Compile

variable {ρ : Type}

namespace TypeGraph

/-- A schema for a reference may have a property of a name: the name of a field of its own, also if the field
is flattened, since its type may be cut off; a name that the type of a flattened field or the target of a
pointer may have; or the name of a variant with a payload. What is kept for a reference is answered for every
other one that is looked up under the key. -/
inductive MayName (G : TypeGraph ρ) : TypeRef ρ → String → Prop where
  | own {t : TypeRef ρ} {fields : List (Field (TypeRef ρ))} {casing : Option Casing}
      {field : Field (TypeRef ρ)} (hshape : (t.load G.env).shape = .record fields casing)
      (hfield : field ∈ fields) (hkept : field.metadata.ignore = false) :
      MayName G t (field.metadata.wireName field.name casing)
  | merged {t : TypeRef ρ} {fields : List (Field (TypeRef ρ))} {casing : Option Casing}
      {field : Field (TypeRef ρ)} {name : String} (hshape : (t.load G.env).shape = .record fields casing)
      (hfield : field ∈ fields) (hkept : field.metadata.ignore = false)
      (hflatten : field.metadata.flatten = true) (h : MayName G field.type name) : MayName G t name
  | target {t u : TypeRef ρ} {optional : Bool} {name : String}
      (hshape : (t.load G.env).shape = .pointer u optional) (h : MayName G u name) : MayName G t name
  | variant {t : TypeRef ρ} {variants : List (Variant (TypeRef ρ))} {v : Variant (TypeRef ρ)}
      (hshape : (t.load G.env).shape = .enumeration variants) (hv : v ∈ variants)
      (hpayload : v.payload.isSome = true) : MayName G t v.name
  | shared {t u : TypeRef ρ} {policy policy' : RequiredPolicy} {name : String} (ht : t ∈ G.refs)
      (hu : u ∈ G.refs) (hkey : cacheKey policy (t.load G.env).identity = cacheKey policy' u.identity)
      (h : MayName G t name) : MayName G u name

/-- A field may contribute a property of a name to its record. -/
def MayContribute (G : TypeGraph ρ) (casing : Option Casing) (field : Field (TypeRef ρ)) (name : String) :
    Prop :=
  name = field.metadata.wireName field.name casing ∨
    (field.metadata.flatten = true ∧ G.MayName field.type name)

/-- In every record no two of the fields that are not ignored may contribute one name, and in every
enumeration the variants have names of their own. -/
structure Distinct (G : TypeGraph ρ) : Prop where
  fields : ∀ t ∈ G.refs, ∀ fields casing, (t.load G.env).shape = .record fields casing →
    (fields.filter fun field => !field.metadata.ignore).Pairwise fun field field' =>
      ∀ name, G.MayContribute casing field name → ¬ G.MayContribute casing field' name
  variants : ∀ t ∈ G.refs, ∀ variants, (t.load G.env).shape = .enumeration variants →
    (variants.map (·.name)).Nodup

/-- The properties of a schema have distinct names, which a schema for the reference may have. -/
structure Named (G : TypeGraph ρ) (t : TypeRef ρ) (s : Schema) : Prop where
  nodup : (Dictionary.keys (s.properties.getD [])).Nodup
  mayName : ∀ name ∈ Dictionary.keys (s.properties.getD []), G.MayName t name

variable {G : TypeGraph ρ} {policy : RequiredPolicy} {t : TypeRef ρ}

theorem named_of_no_properties {s : Schema} (h : s.properties = none) : G.Named t s := by
  constructor
  · rw [h]
    exact List.nodup_nil
  · intro name hname
    rw [h] at hname
    cases hname

/-- What is taken for another reference may have the names of this one. -/
theorem Named.shared {u : TypeRef ρ} {s : Schema} {policy policy' : RequiredPolicy} (h : G.Named t s)
    (ht : t ∈ G.refs) (hu : u ∈ G.refs)
    (hkey : cacheKey policy (t.load G.env).identity = cacheKey policy' u.identity) : G.Named u s :=
  ⟨h.nodup, fun name hname => .shared ht hu hkey (h.mayName name hname)⟩

/-! ## What fields contribute -/

section

variable {casing : Option Casing} {e : Answered ρ}

/-- A field with a schema of its type contributes names that it may contribute. -/
theorem Named.mayContribute (h : G.Named e.1.type e.2) {name : String} (hname : name ∈ e.contributed casing) :
    G.MayContribute casing e.1 name := by
  unfold Answered.contributed at hname
  by_cases hmerged : e.Merged
  · rw [if_pos hmerged] at hname
    exact .inr ⟨hmerged.1, h.mayName name hname⟩
  · rw [if_neg hmerged] at hname
    exact .inl (List.mem_singleton.1 hname)

/-- A field contributes each name once. -/
theorem Named.nodup_contributed (h : G.Named e.1.type e.2) : (e.contributed casing).Nodup := by
  unfold Answered.contributed
  by_cases hmerged : e.Merged
  · rw [if_pos hmerged]
    exact h.nodup
  · rw [if_neg hmerged]
    exact List.nodup_singleton _

end

/-! ## Schemas that are made of answers -/

/-- The names of a record are those that its fields may contribute. -/
theorem mayName_of_mayContribute {fields : List (Field (TypeRef ρ))} {casing : Option Casing}
    (hshape : (t.load G.env).shape = .record fields casing) {field : Field (TypeRef ρ)}
    (hfield : field ∈ fields.filter fun field => !field.metadata.ignore) {name : String}
    (h : G.MayContribute casing field name) : G.MayName t name := by
  obtain ⟨hmem, hkept⟩ := List.mem_filter.1 hfield
  rw [Bool.not_eq_true'] at hkept
  rcases h with rfl | ⟨hflatten, hname⟩
  · exact .own hshape hmem hkept
  · exact .merged hshape hmem hkept hflatten hname

/-- The schema of a record, with the schemas of its fields' types. -/
theorem named_record {fields : List (Field (TypeRef ρ))} {casing : Option Casing} {answers : List Schema}
    (hshape : (t.load G.env).shape = .record fields casing)
    (h : List.Forall₂ (fun field s => G.Named field.type s)
      (fields.filter fun field => !field.metadata.ignore) answers) :
    G.Named t (.object
      (assembleMembers policy casing (fields.filter fun field => !field.metadata.ignore) answers {}).properties
      (assembleMembers policy casing (fields.filter fun field => !field.metadata.ignore) answers
        {}).required) := by
  constructor
  · show (Dictionary.keys (assembleMembers policy casing _ answers {}).properties).Nodup
    rw [assembleMembers_eq]
    exact (Dictionary.ascending_ofList _).nodup_keys
  · intro name hname
    -- Every key of the object was contributed by some kept field, under its own name or through flattening.
    rcases mem_keys_iff.1 hname with ⟨e, he, hcontributed⟩ | hnone
    · have hnamed : G.Named e.1.type e.2 := List.forall₂_zip h he
      exact mayName_of_mayContribute hshape (List.of_mem_zip he).1 (hnamed.mayContribute hcontributed)
    · cases hnone

/-- The properties of an enumeration have the names of variants with payloads. -/
theorem named_enumeration {variants : List (Variant (TypeRef ρ))} (isKey : Bool) (answers : List Schema)
    (hshape : (t.load G.env).shape = .enumeration variants) :
    G.Named t (assemble policy isKey (.enumeration variants) answers) := by
  dsimp only [assemble]
  -- A unit enumeration has no properties at all; the other kind has one for each variant that carries a
  -- payload.
  split
  · exact named_of_no_properties rfl
  · have hproperties : assembleProperties (variants.filter (·.payload.isSome)) answers [] =
        Dictionary.ofList (((variants.filter (·.payload.isSome)).zip answers).map fun e => (e.1.name, e.2)) :=
      assembleProperties_eq _ _ _
    constructor
    · show (Dictionary.keys (assembleProperties (variants.filter (·.payload.isSome)) answers [])).Nodup
      rw [hproperties]
      exact (Dictionary.ascending_ofList _).nodup_keys
    · intro name hname
      change name ∈ Dictionary.keys (assembleProperties (variants.filter (·.payload.isSome)) answers []) at hname
      rw [hproperties] at hname
      rcases Dictionary.mem_keys_insertAll.1 hname with hname | hnone
      · obtain ⟨_, hentry, rfl⟩ := List.mem_map.1 hname
        obtain ⟨e, he, rfl⟩ := List.mem_map.1 hentry
        obtain ⟨hv, hpayload⟩ := List.mem_filter.1 (List.of_mem_zip he).1
        exact .variant hshape hv hpayload
      · cases hnone

/-- What is made of schemas with names that they may have has such names. -/
theorem named_build {answers : List Schema} (h : List.Forall₂ G.Named (t.load G.env).shape.parts answers) :
    G.Named t (build G.env policy (t.load G.env) answers) := by
  -- a description has no part in this
  suffices hshape : ∀ isKey, G.Named t (assemble policy isKey (t.load G.env).shape answers) from
    ⟨(hshape _).nodup, (hshape _).mayName⟩
  intro isKey
  cases hshape : (t.load G.env).shape with
  | record fields casing =>
      rw [hshape, Shape.parts, List.forall₂_map_left_iff] at h
      exact named_record hshape h
  | pointer u optional =>
      rw [hshape] at h
      obtain ⟨s, _, hs, -, rfl⟩ := List.forall₂_cons_left_iff.1 h
      exact ⟨hs.nodup, fun name hname => .target hshape (hs.mayName name hname)⟩
  | enumeration variants => exact named_enumeration isKey answers hshape
  | map key value =>
      dsimp only [assemble]
      split
      · exact named_of_no_properties rfl
      · exact named_of_no_properties rfl
  | scalar s =>
      cases s with
      | integer unsigned => cases unsigned <;> exact named_of_no_properties rfl
      | _ => exact named_of_no_properties rfl
  | _ => exact named_of_no_properties rfl

end TypeGraph

namespace Compile

/-! ## Calls -/

variable {G : TypeGraph ρ} {policy : RequiredPolicy}

/-- A reference of a graph may be looked up under a key, by a call of one policy or the other. -/
def Reads (G : TypeGraph ρ) (t : TypeRef ρ) (key : String) : Prop :=
  t ∈ G.refs ∧ ∃ policy, key = cacheKey policy t.identity

/-- A call returns and keeps schemas with names that they may have. -/
theorem compileRef_named {t : TypeRef ρ} (ht : t ∈ G.refs) (session : Session ρ)
    (hcache : CachedFor (Reads G) G.Named session.cache) :
    G.Named t (compileRef G.env policy t session).1 ∧
      CachedFor (Reads G) G.Named (compileRef G.env policy t session).2.cache := by
  have hcut : ∀ (t : TypeRef ρ) (cut : Cut), t ∈ G.refs → G.Named t (cut.placeholder t.identity) := by
    intro t cut _
    cases cut <;> exact TypeGraph.named_of_no_properties rfl
  -- An entry may be read back by another reference with the same key: the names it may show are then those
  -- of both.
  have hshare : ∀ t ∈ G.refs, ∀ u, Reads G u (cacheKey policy (t.load G.env).identity) →
      ∀ s, G.Named t s → G.Named u s := by
    rintro t ht u ⟨hu, policy', hkey⟩ s hs
    exact hs.shared ht hu hkey
  have hbuild : ∀ t ∈ G.refs, ∀ answers, List.Forall₂ G.Named (t.load G.env).shape.parts answers →
      G.Named t (build G.env policy (t.load G.env) answers) := by
    intro t _ answers hanswers
    exact TypeGraph.named_build hanswers
  exact compileRef_each (R := (· ∈ G.refs)) G.env (fun t ht => TypeGraph.mem_of_mem_parts ht)
    (fun t ht => ⟨ht, policy, rfl⟩) hcut hbuild hshare t ht session hcache

/-- A cache that was filled by calls for references of a graph, of either policy and in any context. -/
inductive Filled (G : TypeGraph ρ) : SchemaCache → Prop where
  | nil : Filled G []
  | call (policy : RequiredPolicy) (r : Request ρ) (hr : r.root ∈ G.refs) (session : Session ρ)
      (h : Filled G session.cache) : Filled G (r.run G.env policy session).2.cache

/-- Every schema that is cached has no other names than it may have. -/
theorem Filled.named {cache : SchemaCache} (h : Filled G cache) : CachedFor (Reads G) G.Named cache := by
  induction h with
  | nil => exact cachedFor_nil
  | call policy r hr session _ ih =>
      rw [Request.run_eq]
      exact (compileRef_named hr session ih).2

/-! ## Distinct names -/

/-- The names of properties are distinct: in a record those that its fields contribute, given the schemas of
their types, and in an enumeration those of the variants. -/
def DistinctNames : Shape (TypeRef ρ) → List Schema → Prop
  | .record fields casing, answers =>
    (((fields.filter fun field => !field.metadata.ignore).zip answers).flatMap
      (Answered.contributed casing)).Nodup
  | .enumeration variants, _ => (variants.map (·.name)).Nodup
  | _, _ => True

instance : (shape : Shape (TypeRef ρ)) → (answers : List Schema) → Decidable (DistinctNames shape answers)
  | .record _ _, _ => inferInstanceAs (Decidable (List.Nodup _))
  | .enumeration _, _ => inferInstanceAs (Decidable (List.Nodup _))
  | .scalar _, _ | .list _, _ | .map _ _, _ | .pointer _ _, _ | .dynamic, _ | .unsupported _, _ =>
    inferInstanceAs (Decidable True)

end Compile

namespace TypeGraph

variable {G : TypeGraph ρ}

/-- Names are distinct whatever schemas are answered for the parts. -/
theorem Distinct.distinctNames (hG : G.Distinct) {t : TypeRef ρ} (ht : t ∈ G.refs) {answers : List Schema}
    (h : List.Forall₂ G.Named (t.load G.env).shape.parts answers) :
    DistinctNames (t.load G.env).shape answers := by
  cases hshape : (t.load G.env).shape with
  | record fields casing =>
      rw [hshape, Shape.parts, List.forall₂_map_left_iff] at h
      have hpairs := hG.fields t ht fields casing hshape
      rw [← List.map_fst_zip (Nat.le_of_eq h.length_eq), List.pairwise_map] at hpairs
      refine List.nodup_flatMap.2 ⟨?_, ?_⟩
      · intro e he
        exact (List.forall₂_zip h he : G.Named e.1.type e.2).nodup_contributed
      · -- a name that two fields contribute is one that both may contribute
        refine hpairs.imp_of_mem ?_
        intro e e' he he' hdisjoint name hname hname'
        have hnamed : G.Named e.1.type e.2 := List.forall₂_zip h he
        have hnamed' : G.Named e'.1.type e'.2 := List.forall₂_zip h he'
        exact hdisjoint name (hnamed.mayContribute hname) (hnamed'.mayContribute hname')
  | enumeration variants => exact hG.variants t ht variants hshape
  | _ => trivial

/-! ## Finite graphs -/

/-- The names that a field may contribute, where a table says which names types may have, by identities. -/
def offered (table : Dictionary (List String)) (casing : Option Casing) (field : Field (TypeRef ρ)) :
    List String :=
  field.metadata.wireName field.name casing ::
    if field.metadata.flatten then (table.find? field.type.identity).getD [] else []

/-- The names that a schema of a shape may have, by such a table. -/
def shapeNames (table : Dictionary (List String)) : Shape (TypeRef ρ) → List String
  | .record fields casing =>
    (fields.filter fun field => !field.metadata.ignore).flatMap (offered table casing)
  | .pointer u _ => (table.find? u.identity).getD []
  | .enumeration variants => (variants.filter (·.payload.isSome)).map (·.name)
  | _ => []

/-- By such a table no name is there twice. -/
def DistinctBy (table : Dictionary (List String)) : Shape (TypeRef ρ) → Prop
  | .record fields casing =>
    (fields.filter fun field => !field.metadata.ignore).Pairwise fun field field' =>
      ∀ name ∈ offered table casing field, name ∉ offered table casing field'
  | .enumeration variants => (variants.map (·.name)).Nodup
  | _ => True

instance (table : Dictionary (List String)) : (shape : Shape (TypeRef ρ)) → Decidable (DistinctBy table shape)
  | .record _ _ => inferInstanceAs (Decidable (List.Pairwise _ _))
  | .enumeration _ => inferInstanceAs (Decidable (List.Nodup _))
  | .scalar _ | .list _ | .map _ _ | .pointer _ _ | .dynamic | .unsupported _ =>
    inferInstanceAs (Decidable True)

section

variable {env : Environment ρ} {ts : List (TypeRef ρ)}
  {closed : ∀ t ∈ ts, ∀ u ∈ (t.load env).shape.mentions, u ∈ ts} {table : Dictionary (List String)}

/-- A table with the names of each shape has all names that a type may have, if what is kept under one
identity is not looked up under another one. -/
theorem mem_table_of_mayName
    (hnames : ∀ t ∈ ts, ∀ name ∈ shapeNames table (t.load env).shape,
      name ∈ (table.find? t.identity).getD [])
    (hkeys : ∀ t ∈ ts, ∀ u ∈ ts, ∀ policy policy',
      cacheKey policy (t.load env).identity = cacheKey policy' u.identity → t.identity = u.identity)
    {t : TypeRef ρ} {name : String} (h : (ofList env ts closed).MayName t name) (ht : t ∈ ts) :
    name ∈ (table.find? t.identity).getD [] := by
  -- The table is closed under each way a name can come to a reference, which `hnames` checks shape by
  -- shape.
  induction h with
  | @own t fields casing field hshape hfield hkept =>
      refine hnames t ht _ ?_
      rw [show (t.load env).shape = _ from hshape]
      exact List.mem_flatMap.2 ⟨field, List.mem_filter.2 ⟨hfield, by rw [hkept]; rfl⟩, List.mem_cons_self⟩
  | @merged t fields casing field name hshape hfield hkept hflatten _ ih =>
      have hkept' : field ∈ fields.filter fun field => !field.metadata.ignore :=
        List.mem_filter.2 ⟨hfield, by rw [hkept]; rfl⟩
      have hpart : field.type ∈ (t.load env).shape.parts := by
        rw [show (t.load env).shape = _ from hshape]
        exact List.mem_map_of_mem hkept'
      have hname := ih (closed t ht _ (Shape.mem_mentions_of_mem_parts hpart))
      refine hnames t ht _ ?_
      rw [show (t.load env).shape = _ from hshape]
      refine List.mem_flatMap.2 ⟨field, hkept', List.mem_cons_of_mem _ ?_⟩
      rw [if_pos hflatten]
      exact hname
  | @target t u optional name hshape _ ih =>
      have hpart : u ∈ (t.load env).shape.mentions := by
        rw [show (t.load env).shape = _ from hshape]
        exact List.mem_cons_self
      refine hnames t ht _ ?_
      rw [show (t.load env).shape = _ from hshape]
      exact ih (closed t ht u hpart)
  | @variant t variants v hshape hv hpayload =>
      refine hnames t ht _ ?_
      rw [show (t.load env).shape = _ from hshape]
      exact List.mem_map_of_mem (List.mem_filter.2 ⟨hv, hpayload⟩)
  | @shared t u policy policy' name ht' hu hkey _ ih =>
      rw [← hkeys t ht' u hu policy policy' hkey]
      exact ih ht'

/-- Names are distinct if they are so by a table with the names of each shape. -/
theorem distinct_ofList (table : Dictionary (List String))
    (hnames : ∀ t ∈ ts, ∀ name ∈ shapeNames table (t.load env).shape,
      name ∈ (table.find? t.identity).getD [])
    (hkeys : ∀ t ∈ ts, ∀ u ∈ ts, ∀ policy policy',
      cacheKey policy (t.load env).identity = cacheKey policy' u.identity → t.identity = u.identity)
    (hdistinct : ∀ t ∈ ts, DistinctBy table (t.load env).shape) : (ofList env ts closed).Distinct where
  fields t ht fields casing hshape := by
    have hpairs := hdistinct t ht
    rw [show (t.load env).shape = _ from hshape] at hpairs
    -- What a field may contribute is offered by the table, so lists disjoint there are disjoint.
    have hoffered : ∀ field ∈ fields.filter (fun field => !field.metadata.ignore), ∀ name,
        (ofList env ts closed).MayContribute casing field name → name ∈ offered table casing field := by
      rintro field hfield name (rfl | ⟨hflatten, hname⟩)
      · exact List.mem_cons_self
      · have hpart : field.type ∈ (t.load env).shape.parts := by
          rw [show (t.load env).shape = _ from hshape]
          exact List.mem_map_of_mem hfield
        have hmem := closed t ht _ (Shape.mem_mentions_of_mem_parts hpart)
        refine List.mem_cons_of_mem _ ?_
        rw [if_pos hflatten]
        exact mem_table_of_mayName hnames hkeys hname hmem
    refine List.Pairwise.imp_of_mem ?_ hpairs
    intro field field' hfield hfield' hdisjoint name hname hname'
    exact hdisjoint name (hoffered field hfield name hname) (hoffered field' hfield' name hname')
  variants t ht variants hshape := by
    have hnodup := hdistinct t ht
    rw [show (t.load env).shape = _ from hshape] at hnodup
    exact hnodup

end

end TypeGraph

end PayloadSchema
