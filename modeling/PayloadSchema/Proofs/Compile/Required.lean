import Mathlib.Data.List.Pairwise
import PayloadSchema.Proofs.Compile.Everywhere
import PayloadSchema.Proofs.Descriptor.Relation

/-!
# Required properties

A field of a record demands names: its own one if it is required, or, where its type is merged into the
record, the names that the type requires. A record requires what its fields demand, each name once
(`mem_required_iff`). Since a field demands only names of properties that it contributes, what a record
requires are properties of its own, and where no two fields contribute one name, a field alone decides about
its names (`requiresExactly`).

* `Schema.Requires` — required names are distinct properties of the schema, and there is one if the list is
  there;
* `Exact` — every record in a schema requires exactly what it should;
* `run_required` — both hold of what is returned and kept, the second where identities tell types apart;
* `run_required_ne` — a record that is answered with the schema of another one.
-/

namespace PayloadSchema

open Schema (Everywhere Structural)

namespace Schema

/-- The names that a schema requires; none if the list is left out. -/
def requiredNames (s : Schema) : List String := s.required.getD []

/-- A list of required names has names in it, each once, and each that of a property. -/
def Requires (s : Schema) : Prop :=
  ∀ names, s.required = some names →
    names ≠ [] ∧ names.Nodup ∧ ∀ name ∈ names, name ∈ Dictionary.keys (s.properties.getD [])

/-- What is required is a property. -/
theorem Requires.mem_keys {s : Schema} (h : s.Requires) {name : String} (hname : name ∈ s.requiredNames) :
    name ∈ Dictionary.keys (s.properties.getD []) := by
  unfold requiredNames at hname
  cases hrequired : s.required with
  | none =>
      rw [hrequired] at hname
      cases hname
  | some names =>
      rw [hrequired] at hname
      exact (h names hrequired).2.2 name hname

/-- An object requires distinct properties of its own if it is given such a list. -/
theorem requires_object {properties : Dictionary Schema} {required : List String} (hnodup : required.Nodup)
    (hkeys : ∀ name ∈ required, name ∈ Dictionary.keys properties) :
    (Schema.object properties required).Requires := by
  intro names hnames
  unfold object at hnames
  dsimp only at hnames
  split at hnames
  · cases hnames
  · next hne =>
    cases hnames
    exact ⟨hne, hnodup, hkeys⟩

/-- An object requires the names that it is given, also if there are none and the list is left out. -/
@[simp] theorem requiredNames_object (properties : List (String × Schema)) (required : List String) :
    (Schema.object properties required).requiredNames = required := by
  unfold requiredNames object
  dsimp only
  split
  · next hnil => rw [hnil]; rfl
  · rfl

/-- What a schema requires is a matter of its structure. -/
theorem structural_requires : Structural Requires where
  congr h hs := by
    intro names hnames
    rw [h.required] at hnames
    rw [h.properties]
    exact hs names hnames
  plain s _ hrequired _ _ := by
    intro names hnames
    rw [hrequired] at hnames
    cases hnames
  array s := by
    intro names hnames
    cases hnames
  map s := by
    intro names hnames
    cases hnames
  object properties := by
    intro names hnames
    cases hnames

end Schema

namespace Compile

variable {ρ : Type}

/-! ## What a field contributes and demands -/

/-- Every answer is paired with what it is for. -/
theorem exists_mem_zip {α : Type} {xs : List α} {answers : List Schema} {s : Schema}
    (hlength : xs.length = answers.length) (hs : s ∈ answers) :
    ∃ x, (x, s) ∈ xs.zip answers := by
  rw [← List.map_snd_zip (Nat.le_of_eq hlength.symm)] at hs
  obtain ⟨⟨x, _⟩, hmem, rfl⟩ := List.mem_map.1 hs
  exact ⟨x, hmem⟩

/-- A field with the schema of its type. -/
abbrev Answered (ρ : Type) := Field (TypeRef ρ) × Schema

namespace Answered

/-- A field is merged: it is flattened, and its type has properties. -/
def Merged (e : Answered ρ) : Prop := e.1.metadata.flatten = true ∧ e.2.properties.isSome = true

instance (e : Answered ρ) : Decidable e.Merged := inferInstanceAs (Decidable (_ ∧ _))

/-- The name of the property that a field becomes unless it is merged. -/
def wireName (casing : Option Casing) (e : Answered ρ) : String := e.1.metadata.wireName e.1.name casing

/-- A field may lack in a value, whatever it says of being required. -/
def Lacking (e : Answered ρ) : Prop := e.1.optional = true ∨ e.1.metadata.omitEmpty = true

instance (e : Answered ρ) : Decidable e.Lacking := inferInstanceAs (Decidable (_ ∨ _))

/-- The names of the properties that a field contributes to the record. -/
def contributed (casing : Option Casing) (e : Answered ρ) : List String :=
  if e.Merged then Dictionary.keys (e.2.properties.getD []) else [e.wireName casing]

/-- The names that a field demands to be required. -/
def demanded (policy : RequiredPolicy) (casing : Option Casing) (e : Answered ρ) : List String :=
  if e.Merged then if e.Lacking then [] else e.2.requiredNames
  else if e.1.metadata.isRequired e.1.optional policy then [e.wireName casing] else []

/-- What a field demands are properties that it contributes. -/
theorem mem_contributed_of_mem_demanded {policy : RequiredPolicy} {casing : Option Casing} {e : Answered ρ}
    (he : e.2.Requires) {name : String} (h : name ∈ e.demanded policy casing) :
    name ∈ e.contributed casing := by
  unfold demanded at h
  unfold contributed
  -- A merged field demands what its object demands, and those names are keys of it; any other field demands
  -- its own name or nothing.
  by_cases hmerged : e.Merged
  · rw [if_pos hmerged] at h ⊢
    by_cases hlacking : e.Lacking
    · rw [if_pos hlacking] at h
      cases h
    · rw [if_neg hlacking] at h
      exact he.mem_keys h
  · rw [if_neg hmerged] at h ⊢
    by_cases hrequired : e.1.metadata.isRequired e.1.optional policy = true
    · rw [if_pos hrequired] at h
      exact h
    · rw [if_neg hrequired] at h
      cases h

end Answered

/-- A name is required once it is demanded. -/
theorem mem_addRequired {required : List String} {name other : String} :
    other ∈ addRequired required name ↔ other ∈ required ∨ other = name := by
  unfold addRequired
  by_cases hname : required.contains name = true
  · rw [if_pos hname]
    constructor
    · exact .inl
    · rintro (h | rfl)
      · exact h
      · exact List.contains_iff_mem.1 hname
  · rw [if_neg hname, List.mem_append, List.mem_singleton]

/-- A name that is demanded again is not repeated. -/
theorem nodup_addRequired {required : List String} (h : required.Nodup) (name : String) :
    (addRequired required name).Nodup := by
  unfold addRequired
  by_cases hname : required.contains name = true
  · rw [if_pos hname]
    exact h
  · rw [if_neg hname]
    have hnew : name ∉ required := fun hmem => hname (List.contains_iff_mem.2 hmem)
    rw [List.nodup_append]
    refine ⟨h, List.nodup_singleton name, ?_⟩
    rintro a ha b hb rfl
    rw [List.mem_singleton.1 hb] at ha
    exact hnew ha

theorem mem_foldl_addRequired {names required : List String} {other : String} :
    other ∈ names.foldl addRequired required ↔ other ∈ required ∨ other ∈ names := by
  induction names generalizing required with
  | nil => simp
  | cons name names ih => rw [List.foldl_cons, ih, mem_addRequired, List.mem_cons, or_assoc]

theorem nodup_foldl_addRequired {names required : List String} (h : required.Nodup) :
    (names.foldl addRequired required).Nodup := by
  induction names generalizing required with
  | nil => exact h
  | cons name names ih => exact ih (nodup_addRequired h name)

/-! ## One more field -/

/-- A merged field gives its properties to the record, and its required names unless it may lack. -/
theorem add_of_merged {m : Members} (policy : RequiredPolicy) (casing : Option Casing) {e : Answered ρ}
    (h : e.Merged) :
    m.add policy casing e.1 e.2 =
      { properties := m.properties.insertAll (e.2.properties.getD [])
        required := if e.Lacking then m.required else e.2.requiredNames.foldl addRequired m.required } := by
  obtain ⟨hflatten, hsome⟩ := h
  obtain ⟨properties, hproperties⟩ := Option.isSome_iff_exists.1 hsome
  have hlacking : (e.1.optional || e.1.metadata.omitEmpty) = true ↔ e.Lacking := Bool.or_eq_true _ _ ▸ .rfl
  unfold Members.add
  rw [hflatten, hproperties]
  simp only [Members.merge, hlacking, Option.getD_some, Schema.requiredNames]

/-- Any other field becomes a property of its own, which is required if the field is. -/
theorem add_of_not_merged {m : Members} (policy : RequiredPolicy) (casing : Option Casing) {e : Answered ρ}
    (h : ¬ e.Merged) :
    m.add policy casing e.1 e.2 =
      { properties := m.properties.insert (e.wireName casing) (e.1.metadata.constrain e.2)
        required :=
          if e.1.metadata.isRequired e.1.optional policy then addRequired m.required (e.wireName casing)
          else m.required } := by
  unfold Members.add
  split
  · next properties hflatten hproperties =>
    exact absurd ⟨hflatten, by rw [hproperties]; rfl⟩ h
  · rfl

/-- A field adds the names that it contributes to the properties. -/
theorem mem_keys_add {m : Members} {policy : RequiredPolicy} {casing : Option Casing} {e : Answered ρ}
    {name : String} :
    name ∈ (m.add policy casing e.1 e.2).properties.keys ↔
      name ∈ e.contributed casing ∨ name ∈ m.properties.keys := by
  unfold Answered.contributed
  by_cases hmerged : e.Merged
  · rw [add_of_merged policy casing hmerged, if_pos hmerged]
    exact Dictionary.mem_keys_insertAll
  · rw [add_of_not_merged policy casing hmerged, if_neg hmerged, List.mem_singleton]
    exact Dictionary.mem_keys_insert

/-- A field adds the names that it demands to the required ones. -/
theorem mem_required_add {m : Members} {policy : RequiredPolicy} {casing : Option Casing} {e : Answered ρ}
    {name : String} :
    name ∈ (m.add policy casing e.1 e.2).required ↔
      name ∈ m.required ∨ name ∈ e.demanded policy casing := by
  unfold Answered.demanded
  -- Merged names are appended one by one, an own name at most once: in both cases membership is what is
  -- kept.
  by_cases hmerged : e.Merged
  · rw [add_of_merged policy casing hmerged, if_pos hmerged]
    by_cases hlacking : e.Lacking
    · simp [hlacking]
    · simp only [hlacking, if_false]
      exact mem_foldl_addRequired
  · rw [add_of_not_merged policy casing hmerged, if_neg hmerged]
    by_cases hrequired : e.1.metadata.isRequired e.1.optional policy = true
    · simp only [hrequired, if_true, List.mem_singleton]
      exact mem_addRequired
    · simp [hrequired]

/-- No name is there twice, from whichever field it comes. -/
theorem nodup_required_add {m : Members} (h : m.required.Nodup) (policy : RequiredPolicy)
    (casing : Option Casing) (e : Answered ρ) : (m.add policy casing e.1 e.2).required.Nodup := by
  by_cases hmerged : e.Merged
  · rw [add_of_merged policy casing hmerged]
    by_cases hlacking : e.Lacking
    · simpa only [hlacking, if_true] using h
    · simpa only [hlacking, if_false] using nodup_foldl_addRequired h
  · rw [add_of_not_merged policy casing hmerged]
    by_cases hrequired : e.1.metadata.isRequired e.1.optional policy = true
    · simpa only [hrequired, if_true] using nodup_addRequired h _
    · simpa only [hrequired, Bool.false_eq_true, if_false] using h

/-! ## All fields -/

section

variable {policy : RequiredPolicy} {casing : Option Casing} {fields : List (Field (TypeRef ρ))}
  {answers : List Schema}

/-- The properties of a record are those that its fields contribute. -/
theorem mem_keys_iff {m : Members} {name : String} :
    name ∈ (assembleMembers policy casing fields answers m).properties.keys ↔
      (∃ e ∈ fields.zip answers, name ∈ Answered.contributed casing e) ∨ name ∈ m.properties.keys := by
  unfold assembleMembers
  induction fields.zip answers generalizing m with
  | nil => simp
  | cons e entries ih =>
      rw [List.foldl_cons, ih, mem_keys_add, ← or_assoc]
      simp only [List.exists_mem_cons_iff]
      rw [or_comm (a := name ∈ Answered.contributed casing e)]

/-- The required names of a record are those that its fields demand. -/
theorem mem_required_iff {m : Members} {name : String} :
    name ∈ (assembleMembers policy casing fields answers m).required ↔
      name ∈ m.required ∨ ∃ e ∈ fields.zip answers, name ∈ Answered.demanded policy casing e := by
  unfold assembleMembers
  induction fields.zip answers generalizing m with
  | nil => simp
  | cons e entries ih =>
      rw [List.foldl_cons, ih, mem_required_add, or_assoc]
      simp only [List.exists_mem_cons_iff]

/-- No name is required twice in a record. -/
theorem nodup_required {m : Members} (h : m.required.Nodup) :
    (assembleMembers policy casing fields answers m).required.Nodup :=
  assembleMembers_preserves (P := fun m => m.required.Nodup)
    (fun field _ s _ _ hm => nodup_required_add hm policy casing (field, s)) h

/-- A record requires properties of its own, each once, if the types of its fields do. -/
theorem requires_record (hanswers : ∀ s ∈ answers, s.Requires) :
    (Schema.object (assembleMembers policy casing fields answers {}).properties
      (assembleMembers policy casing fields answers {}).required).Requires := by
  refine Schema.requires_object (nodup_required List.nodup_nil) ?_
  intro name hname
  rcases mem_required_iff.1 hname with hnone | ⟨e, he, hdemanded⟩
  · cases hnone
  · -- the field that demands the name contributes a property of this name
    have hrequires : e.2.Requires := hanswers e.2 (List.of_mem_zip he).2
    exact mem_keys_iff.2 (.inl ⟨e, he, Answered.mem_contributed_of_mem_demanded hrequires hdemanded⟩)

/-! ## What a record should require -/

/-- The names that are required are those that should be. The own name of a field is required if and only if
the field neither is optional nor omitted when empty, and says that it is required, where the policy asks
for that; a name that the type of a merged field requires, if and only if the field is neither optional nor
omitted when empty. -/
structure RequiresExactly (policy : RequiredPolicy) (casing : Option Casing) (entries : List (Answered ρ))
    (required : List String) : Prop where
  own : ∀ e ∈ entries, ¬ e.Merged →
    (e.wireName casing ∈ required ↔
      e.1.optional = false ∧ e.1.metadata.omitEmpty = false ∧
        (policy = .tagged → e.1.metadata.required = true))
  merged : ∀ e ∈ entries, e.Merged → ∀ name ∈ e.2.requiredNames,
    (name ∈ required ↔ e.1.optional = false ∧ e.1.metadata.omitEmpty = false)

/-- A field is required unless it may lack in a value, and under the plain policy only if it says so. -/
theorem isRequired_iff {m : FieldMetadata} {optional : Bool} {policy : RequiredPolicy} :
    m.isRequired optional policy = true ↔
      optional = false ∧ m.omitEmpty = false ∧ (policy = .tagged → m.required = true) := by
  unfold FieldMetadata.isRequired
  cases policy <;> cases m.omitEmpty <;> cases optional <;> simp

/-- Where no two fields contribute one name, a name that a field contributes is required if and only if this
field demands it. -/
theorem mem_required_iff_demanded (hanswers : ∀ s ∈ answers, s.Requires)
    (hdistinct : ((fields.zip answers).flatMap (Answered.contributed casing)).Nodup)
    {e : Answered ρ} (he : e ∈ fields.zip answers) {name : String} (hname : name ∈ e.contributed casing) :
    name ∈ (assembleMembers policy casing fields answers {}).required ↔ name ∈ e.demanded policy casing := by
  rw [mem_required_iff]
  constructor
  · rintro (hnone | ⟨e', he', hdemanded⟩)
    · cases hnone
    · by_cases hsame : e = e'
      · rw [hsame]
        exact hdemanded
      · -- another field that demands the name would contribute it as well
        have hrequires : e'.2.Requires := hanswers e'.2 (List.of_mem_zip he').2
        have hname' := Answered.mem_contributed_of_mem_demanded hrequires hdemanded
        have hsymm : Std.Symm (Function.onFun List.Disjoint fun e : Answered ρ => e.contributed casing) :=
          ⟨fun _ _ hdisjoint _ hleft hright => hdisjoint hright hleft⟩
        have hdisjoint := (List.nodup_flatMap.1 hdistinct).2.forall he he' hsame
        exact absurd hname' (hdisjoint hname)
  · intro hdemanded
    exact .inr ⟨e, he, hdemanded⟩

/-- A record requires exactly what it should, if no two of its fields contribute one name. -/
theorem requiresExactly (hanswers : ∀ s ∈ answers, s.Requires)
    (hdistinct : ((fields.zip answers).flatMap (Answered.contributed casing)).Nodup) :
    RequiresExactly policy casing (fields.zip answers)
      (assembleMembers policy casing fields answers {}).required := by
  constructor
  · intro e he hmerged
    -- The name is this field's alone, so that it is required speaks of this field.
    have hname : e.wireName casing ∈ e.contributed casing := by
      unfold Answered.contributed
      rw [if_neg hmerged]
      exact List.mem_singleton_self _
    rw [mem_required_iff_demanded hanswers hdistinct he hname, ← isRequired_iff]
    unfold Answered.demanded
    rw [if_neg hmerged]
    by_cases hrequired : e.1.metadata.isRequired e.1.optional policy = true
    · simp [hrequired]
    · simp [hrequired]
  · intro e he hmerged name hrequired
    have hname : name ∈ e.contributed casing := by
      unfold Answered.contributed
      rw [if_pos hmerged]
      exact (hanswers e.2 (List.of_mem_zip he).2).mem_keys hrequired
    rw [mem_required_iff_demanded hanswers hdistinct he hname]
    unfold Answered.demanded
    rw [if_pos hmerged]
    -- An optional field takes its merged names along as properties but demands none of them.
    by_cases hlacking : e.Lacking
    · rw [if_pos hlacking]
      unfold Answered.Lacking at hlacking
      constructor
      · intro hmem
        cases hmem
      · rintro ⟨hoptional, homit⟩
        rw [hoptional, homit] at hlacking
        simp at hlacking
    · rw [if_neg hlacking]
      unfold Answered.Lacking at hlacking
      rw [not_or, Bool.not_eq_true, Bool.not_eq_true] at hlacking
      exact ⟨fun _ => hlacking, fun _ => hrequired⟩

/-- A schema requires exactly what a record with certain fields should, where the schemas of the types of
the fields that are not ignored are given, unless two fields contribute one name. -/
def RecordRequires (policy : RequiredPolicy) (casing : Option Casing) (fields : List (Field (TypeRef ρ)))
    (answers : List Schema) (s : Schema) : Prop :=
  let kept := fields.filter fun field => !field.metadata.ignore
  kept.length = answers.length ∧
    (((kept.zip answers).flatMap (Answered.contributed casing)).Nodup →
      RequiresExactly policy casing (kept.zip answers) s.requiredNames)

/-- The schema of a record requires exactly what it should, given the answers for its fields. -/
theorem recordRequires_build (env : Environment ρ) {d : Descriptor (TypeRef ρ)}
    (hd : d.shape = .record fields casing) (hanswers : ∀ s ∈ answers, s.Requires)
    (hlength : d.shape.parts.length = answers.length) :
    RecordRequires policy casing fields answers (build env policy d answers) := by
  -- The description is written over the finished object, which keeps its names.
  have hnames : (build env policy d answers).requiredNames =
      (assembleMembers policy casing (fields.filter fun field => !field.metadata.ignore) answers
        {}).required := by
    unfold build
    rw [hd]
    exact Schema.requiredNames_object
      (assembleMembers policy casing (fields.filter fun field => !field.metadata.ignore) answers {}).properties
      _
  rw [hd, Shape.parts, List.length_map] at hlength
  refine ⟨hlength, ?_⟩
  intro hdistinct
  rw [hnames]
  exact requiresExactly hanswers hdistinct

end

/-! ## Records at every depth -/

section

variable {policy : RequiredPolicy} {known : String → Schema → Prop}

/-- A schema for a reference in which every record requires exactly what it should. It is the placeholder of a
cut, or it was known for the identity, or it is made of such schemas for the parts; then, if it is the schema
of a record, it requires exactly what it should, given these. -/
inductive Exact (env : Environment ρ) (policy : RequiredPolicy) (known : String → Schema → Prop) :
    TypeRef ρ → Schema → Prop where
  | cut (t : TypeRef ρ) (cut : Cut) : Exact env policy known t (cut.placeholder t.identity)
  | known {t : TypeRef ρ} {s : Schema} (h : known t.identity s) : Exact env policy known t s
  | made {t : TypeRef ρ} {answers : List Schema}
      (hlength : (t.load env).shape.parts.length = answers.length)
      (hparts : ∀ u s, (u, s) ∈ (t.load env).shape.parts.zip answers → Exact env policy known u s)
      (hrecord : ∀ fields casing, (t.load env).shape = .record fields casing →
        RecordRequires policy casing fields answers (build env policy (t.load env) answers)) :
      Exact env policy known t (build env policy (t.load env) answers)

/-- Such a schema requires distinct properties of its own at every depth. -/
theorem Exact.everywhere_requires {env : Environment ρ} {t : TypeRef ρ} {s : Schema}
    (hknown : ∀ X s, known X s → s.Everywhere Schema.Requires) (h : Exact env policy known t s) :
    s.Everywhere Schema.Requires := by
  induction h with
  | cut t cut => exact everywhere_placeholder Schema.structural_requires t.identity cut
  | known h => exact hknown _ _ h
  | @made t answers hlength _ _ ih =>
      have hanswers : ∀ s ∈ answers, s.Everywhere Schema.Requires := by
        intro s hs
        obtain ⟨u, hu⟩ := exists_mem_zip hlength hs
        exact ih u s hu
      refine everywhere_build Schema.structural_requires env policy ?_ (t.load env) answers hanswers
      intro casing fields answers hanswers
      exact requires_record fun s hs => (hanswers s hs).here

/-- What is made of such schemas is one, since they require properties of their own. -/
theorem exact_build {env : Environment ρ} {t : TypeRef ρ} {answers : List Schema}
    (hknown : ∀ X s, known X s → s.Everywhere Schema.Requires)
    (h : List.Forall₂ (Exact env policy known) (t.load env).shape.parts answers) :
    Exact env policy known t (build env policy (t.load env) answers) := by
  have hanswers : ∀ s ∈ answers, s.Requires := by
    intro s hs
    obtain ⟨u, -, hu⟩ := exists_right_of_mem h.flip hs
    exact (hu.everywhere_requires hknown).here
  refine .made h.length_eq (fun u s hmem => List.forall₂_zip h hmem) ?_
  intro fields casing hshape
  exact recordRequires_build env hshape hanswers h.length_eq

/-- In a consistent graph it is such a schema for every reference with the identity. -/
theorem Exact.congr {G : TypeGraph ρ} (hG : G.Consistent) {t u : TypeRef ρ} {s : Schema}
    (hknown : ∀ X s, known X s → s.Everywhere Schema.Requires) (ht : t ∈ G.refs) (hu : u ∈ G.refs)
    (hid : t.identity = u.identity) (h : Exact G.env policy known t s) : Exact G.env policy known u s := by
  induction h generalizing u with
  | cut t cut =>
      rw [hid]
      exact .cut u cut
  | known h =>
      rw [hid] at h
      exact .known h
  | @made t answers hlength _ _ ih =>
      -- the parts of the other reference have the same identities, hence the same schemas
      have hids : List.Forall₂ (fun w v => w.identity = v.identity) (u.load G.env).shape.parts
          (t.load G.env).shape.parts := (hG.shape_rel hu ht hid.symm).parts
      have hsame : List.Forall₂ (fun v s => ∀ w ∈ G.refs, v.identity = w.identity → Exact G.env policy known w s)
          (t.load G.env).shape.parts answers := by
        refine List.forall₂_iff_zip.2 ⟨hlength, ?_⟩
        intro v s hmem w hw hvw
        have hv : v ∈ G.refs := TypeGraph.mem_of_mem_parts ht v (List.of_mem_zip hmem).1
        exact ih v s hmem hv hw hvw
      have hmem := TypeGraph.mem_of_mem_parts hu
      rw [hG.build_eq policy ht hu hid]
      refine exact_build hknown ?_
      refine ((List.forall₂_and_left _ _).2 ⟨hmem, forall₂_comp hids hsame⟩).imp ?_
      rintro w s ⟨hw, v, hvw, hs⟩
      exact hs w hw hvw.symm

/-- In a faithful and consistent graph a call returns and keeps such schemas, if such are cached. -/
theorem compileRef_exact {G : TypeGraph ρ} (hf : G.Faithful) (hc : G.Consistent)
    (hknown : ∀ X s, known X s → s.Everywhere Schema.Requires) {t : TypeRef ρ} (ht : t ∈ G.refs)
    (session : Session ρ)
    (hcache : ∀ u ∈ G.refs, ∀ s, cached? policy u.identity session.cache = some s →
      Exact G.env policy known u s) :
    Exact G.env policy known t (compileRef G.env policy t session).1 ∧
      ∀ u ∈ G.refs, ∀ s, cached? policy u.identity (compileRef G.env policy t session).2.cache = some s →
        Exact G.env policy known u s := by
  -- An entry read back belongs to a reference of the same identity, and those have related shapes.
  have hshare : ∀ t ∈ G.refs, ∀ u,
      (u ∈ G.refs ∧ cacheKey policy (t.load G.env).identity = cacheKey policy u.identity) →
      ∀ s, Exact G.env policy known t s → Exact G.env policy known u s := by
    rintro t ht u ⟨hu, hkey⟩ s hs
    have hid : t.identity = u.identity := (hf t ht).symm.trans (cacheKey_injective policy hkey)
    exact hs.congr hc hknown ht hu hid
  have hfor : CachedFor (fun u key => u ∈ G.refs ∧ key = cacheKey policy u.identity)
      (Exact G.env policy known) session.cache := by
    rintro key s hs u ⟨hu, rfl⟩
    exact hcache u hu s hs
  have hbuild : ∀ t ∈ G.refs, ∀ answers,
      List.Forall₂ (Exact G.env policy known) (t.load G.env).shape.parts answers →
        Exact G.env policy known t (build G.env policy (t.load G.env) answers) := by
    intro t _ answers hanswers
    exact exact_build hknown hanswers
  obtain ⟨hreturned, hkept⟩ := compileRef_each (R := (· ∈ G.refs)) G.env
    (fun t ht => TypeGraph.mem_of_mem_parts ht) (fun t ht => ⟨ht, rfl⟩) (fun t cut _ => .cut t cut) hbuild hshare
    t ht session hfor
  refine ⟨hreturned, ?_⟩
  intro u hu s hs
  exact hkept _ s hs u ⟨hu, rfl⟩

end

/-! ## An order -/

namespace Order

def address : TypeRef Unit :=
  .ready (.record "Address" [{ name := "city", type := Tree.text, metadata := { required := true } }] none)

/-- A text that is required, one that is required but may be absent, and an address to be merged. -/
def fields : List (Field (TypeRef Unit)) :=
  [{ name := "number", type := Tree.text, metadata := { required := true } },
    { name := "note", type := Tree.text, metadata := { required := true }, optional := true },
    { name := "address", type := address, metadata := { flatten := true } }]

/-- The record with these fields. -/
def self : TypeRef Unit := .ready (.record "Order" fields none)

theorem closed : ∀ t ∈ [self, address, Tree.text], ∀ u ∈ (t.load Tree.env).shape.mentions,
    u ∈ [self, address, Tree.text] :=
  TypeGraph.closed_of_places [[2, 2, 1], [2], []] rfl

def graph : TypeGraph Unit := .ofList Tree.env [self, address, Tree.text] closed

theorem faithful : graph.Faithful := TypeGraph.faithful_ofList (by decide)

theorem consistent : graph.Consistent := TypeGraph.consistent_ofList (by decide)

/-- The schemas of the types of the fields. -/
def answers : List Schema :=
  (askAll (compileRef Tree.env .tagged) [Tree.text, Tree.text, address]
    (enterRef Tree.env self (fresh 10 []))).1

end Order

/-! ## What a call returns and keeps -/

/-- **Required properties.** For any environment, policy and context and a cache whose schemas require
distinct properties of their own at every depth, so does what a call returns, and what is cached afterwards.
Every record that is expanded, by the call or by a call inside, requires exactly what it should, given the
schemas that are answered for the types of its fields. In a faithful and consistent graph every record in
what is returned does so, at every depth, and in what is cached afterwards, if the records in what was cached
before did, or are known for their identities. -/
theorem run_required (env : Environment ρ) (policy : RequiredPolicy) (r : Request ρ) (session : Session ρ)
    (hcache : ∀ key s, Dictionary.find? session.cache key = some s → s.Everywhere Schema.Requires) :
    ((r.run env policy session).1.Everywhere Schema.Requires ∧
      ∀ key s, Dictionary.find? (r.run env policy session).2.cache key = some s →
        s.Everywhere Schema.Requires) ∧
    (∀ t inside, CallsInside env policy (r.root, session) (t, inside) →
      ∀ fields casing, (t.load env).shape = .record fields casing →
        cached? policy t.identity inside.cache = none → cut? t.identity inside.context = none →
          RecordRequires policy casing fields
            (askAll (compileRef env policy) (t.load env).shape.parts (enterRef env t inside)).1
            (compileRef env policy t inside).1) ∧
    ∀ G : TypeGraph ρ, G.env = env → G.Faithful → G.Consistent → r.root ∈ G.refs →
      ∀ known : String → Schema → Prop, (∀ X s, known X s → s.Everywhere Schema.Requires) →
        (∀ t ∈ G.refs, ∀ s, cached? policy t.identity session.cache = some s → Exact env policy known t s) →
          Exact env policy known r.root (r.run env policy session).1 ∧
          ∀ t ∈ G.refs, ∀ s, cached? policy t.identity (r.run env policy session).2.cache = some s →
            Exact env policy known t s := by
  have hcall (t : TypeRef ρ) (inside : Session ρ)
      (hinside : CachedFor (fun (_ : TypeRef ρ) _ => True) (fun _ => Everywhere Schema.Requires) inside.cache) :
      (compileRef env policy t inside).1.Everywhere Schema.Requires ∧
        CachedFor (fun (_ : TypeRef ρ) _ => True) (fun _ => Everywhere Schema.Requires)
          (compileRef env policy t inside).2.cache := by
    rw [cachedFor_iff_allCached] at hinside ⊢
    have hcut := everywhere_placeholder Schema.structural_requires
    have hbuild := everywhere_build Schema.structural_requires env policy
      fun casing fields answers hanswers => requires_record fun s hs => (hanswers s hs).here
    exact compileRef_all env policy hcut hbuild t inside hinside
  have hbefore : CachedFor (fun (_ : TypeRef ρ) _ => True) (fun _ => Everywhere Schema.Requires)
      session.cache := cachedFor_iff_allCached.2 hcache
  rw [Request.run_eq]
  refine ⟨?_, ?_, ?_⟩
  · obtain ⟨hreturned, hkept⟩ := hcall r.root session hbefore
    exact ⟨hreturned, cachedFor_iff_allCached.1 hkept⟩
  · intro t inside hinside fields casing hshape hcached hopen
    -- the cache before the call inside is as that before the call, so that the answers require properties too
    obtain ⟨-, hcache'⟩ := hinside.cachedFor (R := fun _ => True) (fun _ _ _ _ => trivial)
      (fun u _ deeper hdeeper => hcall u deeper hdeeper) trivial hbefore
    obtain ⟨hall, -⟩ := askAll_each env (enterRef env t inside)
      (fun u (_ : u ∈ (t.load env).shape.parts) deeper _ hdeeper => hcall u deeper hdeeper) hcache'
    have hanswers : ∀ s ∈ (askAll (compileRef env policy) (t.load env).shape.parts (enterRef env t inside)).1,
        s.Requires := by
      intro s hs
      obtain ⟨_, -, hrequires⟩ := exists_right_of_mem hall.flip hs
      exact hrequires.here
    have hresult : (compileRef env policy t inside).1 = build env policy (t.load env)
        (askAll (compileRef env policy) (t.load env).shape.parts (enterRef env t inside)).1 :=
      congrArg Prod.fst (compileRef_of_open env hcached hopen)
    rw [hresult]
    exact recordRequires_build env hshape hanswers (length_askAll _ _ _).symm
  · rintro G rfl hfaithful hconsistent hroot known hknown hexact
    exact compileRef_exact hfaithful hconsistent hknown hroot session hexact

/-- An order requires its number and the city of its address, but no note. Every record in it, and in what is
cached then, requires exactly what it should. -/
theorem run_required_order :
    (∀ key (s : Schema), Dictionary.find? [] key = some s → s.Everywhere Schema.Requires) ∧
      ((Order.fields.zip Order.answers).flatMap (Answered.contributed none)).Nodup ∧
      RequiresExactly .tagged none (Order.fields.zip Order.answers)
        (compileRef Tree.env .tagged Order.self (fresh 10 [])).1.requiredNames ∧
      (compileRef Tree.env .tagged Order.self (fresh 10 [])).1.requiredNames = ["number", "city"] ∧
      Exact Tree.env .tagged (fun _ _ => False) Order.self
        (compileRef Tree.env .tagged Order.self (fresh 10 [])).1 := by
  obtain ⟨-, hexpanded, hthroughout⟩ :=
    run_required Tree.env .tagged (.reference Order.self) (fresh 10 []) allCached_nil
  obtain ⟨hexact, -⟩ := hthroughout Order.graph rfl Order.faithful Order.consistent List.mem_cons_self
    (fun _ _ => False) (fun _ _ hfalse => hfalse.elim) (fun _ _ _ hs => by cases hs)
  obtain ⟨-, hexactly⟩ := hexpanded Order.self (fresh 10 []) .refl Order.fields none rfl rfl rfl
  -- The merged address contributes one name, and no other field has it.
  have hdistinct : ((Order.fields.zip Order.answers).flatMap (Answered.contributed none)).Nodup := by
    decide +kernel
  exact ⟨allCached_nil, hdistinct, hexactly hdistinct, by decide +kernel, hexact⟩

/-! ## A parcel -/

namespace Parcel

def text : TypeRef String := .ready (.scalar "string" .text)

/-- The city of an address, which is required unless it may lack. -/
def city (optional : Bool) : Field (TypeRef String) :=
  { name := "city", type := text, metadata := { required := true }, optional }

/-- Two records that both say that they are addresses. The receiver's may be without a city. -/
def env : Environment String where
  load handle := .record "Address" [city (handle = "receiver")] none

def receiver : TypeRef String := .deferred "Address" "receiver"

/-- The address of the sender, under any identity. -/
def sender (identity : String) : TypeRef String := .deferred identity "sender"

/-- A parcel has a sender and a receiver. -/
def self (identity : String) : TypeRef String :=
  .ready (.record "Parcel"
    [{ name := "sender", type := sender identity }, { name := "receiver", type := receiver }] none)

theorem closed (identity : String) : ∀ t ∈ [self identity, sender identity, receiver, text],
    ∀ u ∈ (t.load env).shape.mentions, u ∈ [self identity, sender identity, receiver, text] :=
  TypeGraph.closed_of_places [[1, 2], [3], [3], []] rfl

def graph (identity : String) : TypeGraph String :=
  .ofList env [self identity, sender identity, receiver, text] (closed identity)

/-- With one identity for both addresses each of them has its own. -/
theorem faithful : (graph "Address").Faithful := TypeGraph.faithful_ofList (by decide)

/-- With an identity that the sender's does not have, no two types have one identity. -/
theorem consistent : (graph "Sender").Consistent := TypeGraph.consistent_ofList (by decide)

end Parcel

/-- Where two records have one identity, or a record is loaded under an identity that it does not have, what was
compiled for the one is taken for the other: the city of the receiver is required, though it may lack. -/
theorem run_required_ne :
    ((Parcel.graph "Address").Faithful ∧ (Parcel.graph "Sender").Consistent) ∧
      (Parcel.receiver.load Parcel.env).shape = .record [Parcel.city true] none ∧
      ∀ identity ∈ ["Address", "Sender"],
        ∃ properties s,
          (compileRef Parcel.env .tagged (Parcel.self identity) (fresh 10 [])).1.properties = some properties ∧
            Dictionary.find? properties "receiver" = some s ∧
              ¬ RecordRequires .tagged none [Parcel.city true] [ofScalar .text] s := by
  have hwrong (s : Schema) (hs : s.requiredNames = ["city"]) :
      ¬ RecordRequires .tagged none [Parcel.city true] [ofScalar .text] s := by
    rintro ⟨-, hexactly⟩
    -- the only field contributes its name, which is required though the field is optional
    have hown := (hexactly (by decide)).own (Parcel.city true, ofScalar .text) List.mem_cons_self (by decide)
    rw [hs] at hown
    cases (hown.1 List.mem_cons_self).1
  refine ⟨⟨Parcel.faithful, Parcel.consistent⟩, rfl, ?_⟩
  intro identity hidentity
  simp only [List.mem_cons, List.not_mem_nil, or_false] at hidentity
  rcases hidentity with rfl | rfl
  · exact ⟨_, _, rfl, rfl, hwrong _ rfl⟩
  · exact ⟨_, _, rfl, rfl, hwrong _ rfl⟩

end Compile

end PayloadSchema
