import PayloadSchema.Proofs.Compile.Everywhere
import PayloadSchema.Proofs.Compile.Growth
import PayloadSchema.Proofs.Metadata.Storage
import PayloadSchema.Proofs.Stored.Rereading
import PayloadSchema.Stored.Store

/-!
# Compiled schemas that are stored

What is compiled can be kept in a text, if the metadata of fields can: every schema that is built, and every
constraint that is put on one, keeps to what a text can hold. So a compiled schema is read back from its file
as it was, but for infinite bounds and for samples that are `null`.

* `Compile.compileRef_storable_among`, `Compile.compileRef_storable` — what is compiled can be stored;
* `Compile.run_stored` — what a store serves of it;
* `Compile.read_ne_stored` — a sample that is lost.
-/

namespace PayloadSchema

open Schema (Everywhere PartsStorable)

namespace Schema

/-- The parts of a schema without properties, lengths and free values can be kept. -/
theorem partsStorable_plain {s : Schema} (hproperties : s.properties = none) (hminLength : s.minLength = none)
    (hmaxLength : s.maxLength = none) (hallowed : s.allowed = none) (hsample : s.sample = none) :
    s.PartsStorable := by
  constructor
  · rw [hproperties]
    rintro _ ⟨⟩
  · rw [hminLength]
    rintro _ ⟨⟩
  · rw [hmaxLength]
    rintro _ ⟨⟩
  · rw [hallowed]
    rintro _ ⟨⟩
  · rw [hsample]
    rintro _ ⟨⟩

/-- A schema without anything inside is all there is to look at. -/
theorem Everywhere.of_children_eq_nil {P : Schema → Prop} {s : Schema} (hs : P s) (h : s.children = []) :
    s.Everywhere P := by
  refine .intro hs ?_
  rw [h]
  simp

/-- An array can be stored if its elements can. -/
theorem everywhere_storable_array {s : Schema} (hs : s.Everywhere PartsStorable) :
    (array s).Everywhere PartsStorable := by
  refine .intro (partsStorable_plain rfl rfl rfl rfl rfl) (forall_mem_children.2 ⟨?_, ?_, ?_⟩)
  · intro e he
    cases he
  · rintro _ ⟨⟩
    exact hs
  · rintro _ ⟨⟩

/-- An object with free keys can be stored if its values can. -/
theorem everywhere_storable_map {s : Schema} (hs : s.Everywhere PartsStorable) :
    (map s).Everywhere PartsStorable := by
  refine .intro (partsStorable_plain rfl rfl rfl rfl rfl) (forall_mem_children.2 ⟨?_, ?_, ?_⟩)
  · intro e he
    cases he
  · rintro _ ⟨⟩
  · rintro _ ⟨⟩
    exact hs

/-- An object can be stored if its properties can and ascend by name. -/
theorem everywhere_storable_object {properties : List (String × Schema)} {required : List String}
    (horder : Dictionary.Ascending properties) (hinside : ∀ e ∈ properties, e.2.Everywhere PartsStorable) :
    (object properties required).Everywhere PartsStorable := by
  refine everywhere_object ?_ hinside
  constructor
  · rintro _ ⟨⟩
    exact horder
  all_goals rintro _ ⟨⟩

/-- A description can be stored with any schema. -/
theorem Everywhere.withDescription {s : Schema} (hs : s.Everywhere PartsStorable) (description : String) :
    (s.withDescription description).Everywhere PartsStorable :=
  .intro { hs.here with } hs.inside

/-- The values that a field lists are finite numbers or texts. -/
theorem storable_listedValue (numeric : Bool) (text : String) :
    (FieldMetadata.listedValue numeric text).Storable := by
  unfold FieldMetadata.listedValue
  split
  · cases hread : Json.Value.ofText? text with
    | none => exact .string text
    | some v => exact Metadata.storable_of_ofText? hread
  · exact .string text

/-- The constraints of a field take over what can be kept, if its metadata can be kept. -/
theorem Everywhere.constrain {s : Schema} (hs : s.Everywhere PartsStorable) {m : FieldMetadata}
    (hm : m.Storable) : (m.constrain s).Everywhere PartsStorable := by
  -- A bound comes from the field or stays as it was, and which of them is decided by the kind.
  have hor {α : Type} {P : α → Prop} {a b : Option α} (ha : ∀ x, a = some x → P x)
      (hb : ∀ x, b = some x → P x) : ∀ x, a.or b = some x → P x := by
    cases a with
    | none => exact hb
    | some a => exact ha
  have hite {P : Nat → Prop} {b : Bool} {o o' : Option Nat} (ho : ∀ n, o = some n → P n)
      (ho' : ∀ n, o' = some n → P n) : ∀ n, (if b = true then o else o') = some n → P n := by
    cases b
    · exact ho'
    · exact ho
  have hhere := hs.here
  have hlisted (numeric : Bool) : ∀ values,
      m.oneOf.map (fun texts => texts.map (FieldMetadata.listedValue numeric)) = some values →
        ∀ v ∈ values, v.Storable := by
    intro values hvalues v hv
    obtain ⟨texts, -, rfl⟩ := Option.map_eq_some_iff.1 hvalues
    obtain ⟨text, -, rfl⟩ := List.mem_map.1 hv
    exact storable_listedValue numeric text
  refine .intro ?_ ?_
  · have hfields : (m.constrain s).properties = s.properties ∧
        (m.constrain s).minLength = (if (s.kind == some .string) = true then m.minLength.or s.minLength
          else s.minLength) ∧
        (m.constrain s).maxLength = (if (s.kind == some .string) = true then m.maxLength.or s.maxLength
          else s.maxLength) ∧
        (m.constrain s).allowed =
          (m.oneOf.map (fun texts => texts.map (FieldMetadata.listedValue
            (s.kind == some .integer || s.kind == some .number)))).or s.allowed ∧
        (m.constrain s).sample = m.sample.or s.sample := by
      unfold FieldMetadata.constrain
      dsimp only
      split <;> exact ⟨rfl, rfl, rfl, rfl, rfl⟩
    obtain ⟨hproperties, hminLength, hmaxLength, hallowed, hsample⟩ := hfields
    constructor
    · rw [hproperties]
      exact hhere.properties
    · rw [hminLength]
      exact hite (hor hm.minLength hhere.minLength) hhere.minLength
    · rw [hmaxLength]
      exact hite (hor hm.maxLength hhere.maxLength) hhere.maxLength
    · rw [hallowed]
      exact hor (hlisted _) hhere.allowed
    · rw [hsample]
      exact hor hm.sample hhere.sample
  · rw [(Schema.sameStructure_constrain m s).children_eq]
    exact hs.inside

end Schema

open Schema (partsStorable_plain everywhere_storable_array everywhere_storable_map everywhere_storable_object)

namespace Compile

variable {ρ : Type}

/-! ## Schemas of shapes -/

/-- The placeholders can be stored. -/
theorem everywhere_storable_placeholder (X : String) (cut : Cut) :
    (cut.placeholder X).Everywhere PartsStorable := by
  cases cut <;> exact .of_children_eq_nil (partsStorable_plain rfl rfl rfl rfl rfl) rfl

/-- The schema of a scalar can be stored. -/
theorem everywhere_storable_ofScalar (s : Scalar) : (ofScalar s).Everywhere PartsStorable := by
  cases s with
  | character =>
      refine .of_children_eq_nil ?_ rfl
      constructor
      · -- A character is the one scalar with bounds of its own.
        rintro _ ⟨⟩
      · rintro _ ⟨⟩
        decide
      · rintro _ ⟨⟩
        decide
      · rintro _ ⟨⟩
      · rintro _ ⟨⟩
  | integer unsigned =>
      cases unsigned <;> exact .of_children_eq_nil (partsStorable_plain rfl rfl rfl rfl rfl) rfl
  | _ => exact .of_children_eq_nil (partsStorable_plain rfl rfl rfl rfl rfl) rfl

/-- The schema of an enumeration without payloads can be stored. -/
theorem everywhere_storable_ofNames (names : List String) : (ofNames names).Everywhere PartsStorable := by
  refine .of_children_eq_nil ?_ rfl
  constructor
  · rintro _ ⟨⟩
  · rintro _ ⟨⟩
  · rintro _ ⟨⟩
  · rintro _ ⟨⟩ v hv
    obtain ⟨name, -, rfl⟩ := List.mem_map.1 hv
    exact .string name
  · rintro _ ⟨⟩

/-- Named schemas in order, each of which can be kept. -/
structure EntriesStorable (entries : List (String × Schema)) : Prop where
  order : Dictionary.Ascending entries
  inside : ∀ e ∈ entries, e.2.Everywhere PartsStorable

theorem entriesStorable_nil : EntriesStorable [] := ⟨.nil, by simp⟩

/-- A property that can be stored may be put in. -/
theorem EntriesStorable.insert {entries : List (String × Schema)} (h : EntriesStorable entries) (name : String)
    {s : Schema} (hs : s.Everywhere PartsStorable) : EntriesStorable (Dictionary.insert entries name s) := by
  refine ⟨h.order.insert name s, ?_⟩
  intro e he
  rcases Dictionary.mem_of_mem_insert he with rfl | he
  · exact hs
  · exact h.inside e he

/-- Properties that can be stored may be put in. -/
theorem EntriesStorable.insertAll {entries more : List (String × Schema)} (h : EntriesStorable entries)
    (hmore : ∀ e ∈ more, e.2.Everywhere PartsStorable) :
    EntriesStorable (Dictionary.insertAll entries more) := by
  refine ⟨h.order.insertAll more, ?_⟩
  intro e he
  rcases Dictionary.mem_of_mem_insertAll he with he | he
  · exact hmore e he
  · exact h.inside e he

/-- What a field adds to a record can be stored. -/
theorem entriesStorable_add {m : Members} (policy : RequiredPolicy) (casing : Option Casing)
    {field : Field (TypeRef ρ)} (hfield : field.metadata.Storable) {s : Schema}
    (hm : EntriesStorable m.properties) (hs : s.Everywhere PartsStorable) :
    EntriesStorable (m.add policy casing field s).properties := by
  unfold Members.add
  split
  · next properties _ hproperties =>
    -- flattened: the properties of the part come in as they are
    apply hm.insertAll
    intro e he
    exact hs.inside e.2 (Schema.mem_children_of_mem_properties hproperties he)
  · exact hm.insert _ (hs.constrain hfield)

/-- The properties of a record can be stored if the answers for its fields can. -/
theorem entriesStorable_assembleMembers (policy : RequiredPolicy) (casing : Option Casing)
    {fields : List (Field (TypeRef ρ))} (hfields : ∀ field ∈ fields, field.metadata.Storable)
    {answers : List Schema} (hanswers : ∀ s ∈ answers, s.Everywhere PartsStorable) {m : Members}
    (hm : EntriesStorable m.properties) :
    EntriesStorable (assembleMembers policy casing fields answers m).properties :=
  assembleMembers_preserves (P := fun m => EntriesStorable m.properties)
    (fun field hfield s hs _ hm =>
      entriesStorable_add policy casing (hfields field hfield) hm (hanswers s hs)) hm

/-- The properties of an enumeration can be stored if the answers for its payloads can. -/
theorem entriesStorable_assembleProperties (variants : List (Variant (TypeRef ρ))) {answers : List Schema}
    (hanswers : ∀ s ∈ answers, s.Everywhere PartsStorable) {properties : Dictionary Schema}
    (hproperties : EntriesStorable properties) :
    EntriesStorable (assembleProperties variants answers properties) :=
  assembleProperties_preserves (fun v _ s hs _ hd => hd.insert v.name (hanswers s hs)) hproperties

/-- The metadata of the fields of a shape. -/
def fieldMetadata {τ : Type} : Shape τ → List FieldMetadata
  | .record fields _ => fields.map (·.metadata)
  | _ => []

/-- The schema of a descriptor can be kept, if the answers for its parts and the metadata of its fields
can. -/
theorem everywhere_storable_build (env : Environment ρ) (policy : RequiredPolicy)
    {d : Descriptor (TypeRef ρ)} (hd : ∀ m ∈ fieldMetadata d.shape, m.Storable) {answers : List Schema}
    (hanswers : ∀ s ∈ answers, s.Everywhere PartsStorable) :
    (build env policy d answers).Everywhere PartsStorable := by
  have hfirst : (answers.headD {}).Everywhere PartsStorable := by
    cases answers with
    | nil => exact .of_children_eq_nil (partsStorable_plain rfl rfl rfl rfl rfl) rfl
    | cons s answers => exact hanswers s List.mem_cons_self
  have hshape : (assemble policy (hasTextKey env d.shape) d.shape answers).Everywhere PartsStorable := by
    -- Records and enumerations are the shapes that make objects; the others pass their first answer on.
    cases hkind : d.shape with
    | scalar s => exact everywhere_storable_ofScalar s
    | record fields casing =>
        rw [hkind] at hd
        have hfields : ∀ field ∈ fields.filter (fun field => !field.metadata.ignore), field.metadata.Storable :=
          fun field hfield => hd _ (List.mem_map_of_mem (List.mem_of_mem_filter hfield))
        have hentries := entriesStorable_assembleMembers policy casing hfields hanswers
          (m := {}) entriesStorable_nil
        exact everywhere_storable_object hentries.order hentries.inside
    | list element => exact everywhere_storable_array hfirst
    | map key value =>
        dsimp only [assemble]
        split
        · exact everywhere_storable_map hfirst
        · exact (everywhere_storable_map hfirst).withDescription _
    | pointer target optional => exact hfirst
    | enumeration variants =>
        dsimp only [assemble]
        split
        · exact everywhere_storable_ofNames _
        · have hentries := entriesStorable_assembleProperties (variants.filter (·.payload.isSome)) hanswers
            entriesStorable_nil
          exact (everywhere_storable_object hentries.order hentries.inside).withDescription _
    | dynamic => exact .of_children_eq_nil (partsStorable_plain rfl rfl rfl rfl rfl) rfl
    | unsupported reason => exact .of_children_eq_nil (partsStorable_plain rfl rfl rfl rfl rfl) rfl
  exact .intro { hshape.here with } hshape.inside

/-- What a call returns and keeps can be stored, if all that is cached before can, and if in what is loaded
for its reference and the parts of it all metadata comes from attributes. -/
theorem compileRef_storable_among (env : Environment ρ) (policy : RequiredPolicy) {R : TypeRef ρ → Prop}
    (hparts : ∀ t, R t → ∀ u ∈ (t.load env).shape.parts, R u)
    (hmetadata : ∀ t, R t → ∀ m ∈ fieldMetadata (t.load env).shape, ∃ attributes, m = .ofAttributes attributes)
    {t : TypeRef ρ} (ht : R t) (session : Session ρ)
    (hcache : AllCached (Everywhere PartsStorable) session.cache) :
    (compileRef env policy t session).1.Everywhere PartsStorable ∧
      AllCached (Everywhere PartsStorable) (compileRef env policy t session).2.cache := by
  refine compileRef_all_among env policy hparts everywhere_storable_placeholder ?_ t ht session hcache
  intro t ht answers hanswers
  have hstorable : ∀ m ∈ fieldMetadata (t.load env).shape, m.Storable := by
    intro m hm
    obtain ⟨attributes, rfl⟩ := hmetadata t ht m hm
    exact FieldMetadata.storable_ofAttributes attributes
  exact everywhere_storable_build env policy hstorable hanswers

/-- In a graph all of whose metadata comes from attributes, what a call returns and keeps can be stored, if
all that is cached before can. -/
theorem compileRef_storable {G : TypeGraph ρ}
    (hG : ∀ t ∈ G.refs, ∀ m ∈ fieldMetadata (t.load G.env).shape, ∃ attributes, m = .ofAttributes attributes)
    (policy : RequiredPolicy) {t : TypeRef ρ} (ht : t ∈ G.refs) (session : Session ρ)
    (hcache : AllCached (Everywhere PartsStorable) session.cache) :
    (compileRef G.env policy t session).1.Everywhere PartsStorable ∧
      AllCached (Everywhere PartsStorable) (compileRef G.env policy t session).2.cache :=
  compileRef_storable_among (R := (· ∈ G.refs)) G.env policy (fun _ ht => TypeGraph.mem_of_mem_parts ht) hG ht
    session hcache

/-! ## Files of compiled schemas -/

/-- A file with a schema for requests. -/
def requestFile (handlerName : String) (s : Schema) : SchemaFile := { handlerName, request := some s }

/-- A file with a schema is read back as the schema that it settles to. -/
theorem ofText_render_requestFile (handlerName : String) {s : Schema} (hs : s.Everywhere PartsStorable)
    (hdepth : (requestFile handlerName s).toValue.nesting ≤ Json.Draft.nestingLimit)
    (hreals : (requestFile handlerName s).toValue.LegibleReals) :
    SchemaFile.ofText .json ((requestFile handlerName s).render .json) =
      .ok (requestFile handlerName s.settled) := by
  refine SchemaFile.ofText_render rfl ?_ hreals hdepth
  intro s' hs'
  rw [SchemaFile.mem_schemas_iff] at hs'
  rcases hs' with hs' | hs'
  · cases hs'
    exact hs
  · cases hs'

/-- Files of one name with two schemas are two files. -/
theorem requestFile_injective {handlerName : String} {s s' : Schema}
    (h : requestFile handlerName s = requestFile handlerName s') : s = s' :=
  Option.some.inj (congrArg SchemaFile.request h)

/-! ## A note -/

namespace Note

/-- A record with a text of which `null` is the sample. -/
def self : TypeRef Unit :=
  .ready (.record "Note"
    [{ name := "text", type := Tree.text, metadata := .ofTags ["schema(example = \"null\")"] }] none)

theorem closed : ∀ t ∈ [self, Tree.text], ∀ u ∈ (t.load Tree.env).shape.mentions, u ∈ [self, Tree.text] := by
  have hkept : (FieldMetadata.ofTags ["schema(example = \"null\")"]).ignore = false := by decide +kernel
  refine TypeGraph.closed_of_places [[1], []] ?_
  simp [self, Tree.text, TypeRef.load, Shape.mentions, Shape.parts, Descriptor.record, Descriptor.scalar,
    hkept]

def graph : TypeGraph Unit := .ofList Tree.env [self, Tree.text] closed

/-- The metadata of the text comes from the attribute of its field. -/
theorem extracted : ∀ t ∈ graph.refs, ∀ m ∈ fieldMetadata (t.load graph.env).shape,
    ∃ attributes, m = .ofAttributes attributes := by
  intro t ht
  change t ∈ [self, Tree.text] at ht
  simp only [List.mem_cons, List.not_mem_nil, or_false] at ht
  rcases ht with rfl | rfl
  · intro m hm
    rw [List.mem_singleton.1 hm]
    exact ⟨_, rfl⟩
  · intro m hm
    cases hm

def schema : Schema := (compileRef Tree.env .tagged self (fresh 10 [])).1

/-- The sample of the text in the schema for requests. -/
def sampleIn (f : SchemaFile) : Option Json.Value :=
  ((f.request.bind (·.properties)).bind (Dictionary.find? · "text")).bind (·.sample)

theorem nesting_le : (requestFile "h" schema).toValue.nesting ≤ Json.Draft.nestingLimit := by
  decide +kernel

theorem legible : (requestFile "h" schema).toValue.LegibleReals := by
  have hnumbers : (requestFile "h" schema).toValue.numbers = [.integer 1] := by
    decide +kernel
  intro x hx
  rw [hnumbers] at hx
  cases List.mem_singleton.1 hx

end Note

/-- **Compiled schemas on disk.** Let all metadata of fields in a graph come from attributes, and let the
cache hold only schemas that can be kept, as an empty one does. Then what a call caches can be kept, too, and
if the file with the schema that it returns is not nested too deep for a reader and its doubles are legible,
the text of this file is read again. What is read is the compiled schema without its infinite bounds and
without samples that are `null`: this is what a store serves with this file. So the file itself is read
if and only if all bounds are finite and no sample is `null`, at every depth. -/
theorem run_stored (G : TypeGraph ρ)
    (hG : ∀ t ∈ G.refs, ∀ m ∈ fieldMetadata (t.load G.env).shape, ∃ attributes, m = .ofAttributes attributes)
    (policy : RequiredPolicy) (r : Request ρ) (hr : r.root ∈ G.refs) (session : Session ρ)
    (hcache : ∀ key s, Dictionary.find? session.cache key = some s → s.Everywhere PartsStorable)
    (handlerName : String) :
    (∀ key s, Dictionary.find? (r.run G.env policy session).2.cache key = some s →
      s.Everywhere PartsStorable) ∧
    ((requestFile handlerName (r.run G.env policy session).1).toValue.nesting ≤ Json.Draft.nestingLimit →
      (requestFile handlerName (r.run G.env policy session).1).toValue.LegibleReals →
        ∃ read, SchemaFile.ofText .json
            ((requestFile handlerName (r.run G.env policy session).1).render .json) = .ok read ∧
          read = requestFile handlerName (r.run G.env policy session).1.settled ∧
          (∀ store : SchemaStore, (store.insert read).request? handlerName =
            some (r.run G.env policy session).1.settled) ∧
          (read = requestFile handlerName (r.run G.env policy session).1 ↔
            (r.run G.env policy session).1.Everywhere fun s =>
              (∀ x, s.minimum = some x → x.isFinite = true) ∧ (∀ x, s.maximum = some x → x.isFinite = true) ∧
                s.sample ≠ some .null)) := by
  obtain ⟨hreturned, hkept⟩ := compileRef_storable hG policy hr session hcache
  rw [← Request.run_eq] at hreturned hkept
  refine ⟨hkept, ?_⟩
  intro hdepth hreals
  have hread := ofText_render_requestFile handlerName hreturned hdepth hreals
  refine ⟨_, hread, rfl, ?_, ?_⟩
  · intro store
    -- The file read last stands under the handler's name.
    have hget : (store.insert
        (requestFile handlerName (r.run G.env policy session).1.settled)).get? handlerName =
          some (requestFile handlerName (r.run G.env policy session).1.settled) :=
      Dictionary.find?_insert_self _ _ _
    rw [SchemaStore.request?, hget]
    rfl
  · constructor
    · intro h
      -- Files of one handler are equal only when their schemas are.
      have hsettled := Schema.settled_eq_self_iff.1 (requestFile_injective h)
      exact hsettled.mono fun s hs => ⟨hs.minimum, hs.maximum, hs.sample⟩
    · intro h
      have hsettled : (r.run G.env policy session).1.settled = (r.run G.env policy session).1 :=
        Schema.settled_eq_self_iff.2 (h.mono fun s hs => ⟨hs.1, hs.2.1, hs.2.2⟩)
      rw [hsettled]

/-- The schema of a note is read again, but without the sample of its text. -/
theorem run_stored_note : ∃ read,
    SchemaFile.ofText .json ((requestFile "h" Note.schema).render .json) = .ok read ∧
      read = requestFile "h" Note.schema.settled := by
  obtain ⟨-, hread⟩ := run_stored Note.graph Note.extracted .tagged (.reference Note.self)
    List.mem_cons_self (fresh 10 []) (fun key s hs => nomatch hs) "h"
  obtain ⟨read, hread, heq, -, -⟩ := hread Note.nesting_le Note.legible
  exact ⟨read, hread, heq⟩

/-- A note is compiled from what its tags say, is not nested deep, and has no double in it. The file that is
read for it is not the one that was written: a sample that is `null` is read as none. -/
theorem read_ne_stored :
    (requestFile "h" Note.schema).toValue.nesting ≤ Json.Draft.nestingLimit ∧
      (requestFile "h" Note.schema).toValue.LegibleReals ∧
        SchemaFile.ofText .json ((requestFile "h" Note.schema).render .json) ≠
          .ok (requestFile "h" Note.schema) := by
  refine ⟨Note.nesting_le, Note.legible, ?_⟩
  intro h
  -- The sample is written as a null and missing when read back, and only that is looked at here.
  have hread : ((SchemaFile.ofText .json ((requestFile "h" Note.schema).render .json)).toOption.bind
      Note.sampleIn).isSome = false := by
    decide +kernel
  have hwritten : (Note.sampleIn (requestFile "h" Note.schema)).isSome = true := by
    decide +kernel
  have hok {result : Except SchemaFileError SchemaFile} {f : SchemaFile} (h : result = .ok f) :
      result.toOption.bind Note.sampleIn = Note.sampleIn f := by
    rw [h]
    rfl
  rw [hok h, hwritten] at hread
  cases hread

end Compile

end PayloadSchema
