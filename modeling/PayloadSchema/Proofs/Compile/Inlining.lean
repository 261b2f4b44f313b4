import PayloadSchema.Proofs.Compile.Members
import PayloadSchema.Proofs.Compile.Pointers

/-!
# Flattened fields and inlined ones

A flattened field with a record behind it gives its record what the fields of that record would give in its
place. The schema of the inner record is made before, with its own choice of what is found under a name and
of which names are required; but putting in what was put together before makes no difference
(`Dictionary.insertAll_ofList`, `foldl_addRequired_foldl`). So where nothing is cut off, a record has one schema,
whether the field is flattened or inlined (`run_inlined`). If the field may lack, so may all that stands in
its place.

What was compiled before is found by its identity. So the types in question have to be told apart by it: with
two types of one identity the schemas may differ (`run_inlined_ne`).
-/

namespace PayloadSchema

open Compile
open Descriptor (Points)

variable {ρ : Type}

/-- What stands in the place of a field, given the fields of the record behind it. If the field may lack in a
value, all of them may. -/
def Field.inlined {τ : Type} (field : Field τ) (fields : List (Field τ)) : List (Field τ) :=
  if field.optional || field.metadata.omitEmpty then fields.map ({ · with optional := true }) else fields

/-- A record with a flattened field, behind which there is a record of the same casing. -/
structure Flattening (env : Environment ρ) where
  record : Descriptor (TypeRef ρ)
  before : List (Field (TypeRef ρ))
  field : Field (TypeRef ρ)
  after : List (Field (TypeRef ρ))
  casing : Option Casing
  record_shape : record.shape = .record (before ++ field :: after) casing
  kept : field.metadata.ignore = false
  flatten : field.metadata.flatten = true
  /-- So many pointers lead from the type of the field to the record behind it. -/
  pointers : Nat
  inner : Descriptor (TypeRef ρ)
  points : Points env pointers (field.type.load env) inner
  fields : List (Field (TypeRef ρ))
  inner_shape : inner.shape = .record fields casing

/-- The record with the fields of the inner record in the place of the flattened field. -/
def Flattening.inlined {env : Environment ρ} (F : Flattening env) : Descriptor (TypeRef ρ) :=
  { F.record with shape := .record (F.before ++ F.field.inlined F.fields ++ F.after) F.casing }

/-- Calls for the record and for the one with inlined fields, which may go so deep, give two schemas, though
neither is truncated. -/
structure Flattening.Differs {env : Environment ρ} (F : Flattening env) (policy : RequiredPolicy)
    (maxDepth : Nat) : Prop where
  record : (compile env policy F.record (fresh maxDepth [])).2.context.isTruncated = false
  inlined : (compile env policy F.inlined (fresh maxDepth [])).2.context.isTruncated = false
  ne : (compile env policy F.inlined (fresh maxDepth [])).1 ≠
    (compile env policy F.record (fresh maxDepth [])).1

/-! ## What is asked for -/

section

variable {τ : Type}

theorem Shape.parts_record_append (fields more : List (Field τ)) (casing : Option Casing) :
    (Shape.record (fields ++ more) casing).parts =
      (Shape.record fields casing).parts ++ (Shape.record more casing).parts := by
  dsimp only [parts]
  rw [List.filter_append, List.map_append]

/-- Whether the inner fields may lack or not, their types are asked for in the same order. -/
theorem Shape.parts_record_inlined (field : Field τ) (fields : List (Field τ)) (casing : Option Casing) :
    (Shape.record (field.inlined fields) casing).parts = (Shape.record fields casing).parts := by
  unfold Field.inlined
  split
  · dsimp only [parts]
    rw [List.filter_map, List.map_map]
    rfl
  · rfl

end

namespace Flattening

/-- The record asks for the types of the fields before, of the flattened field, and of those after. -/
theorem parts_record {env : Environment ρ} (F : Flattening env) :
    F.record.shape.parts = (Shape.record F.before F.casing).parts ++
      F.field.type :: (Shape.record F.after F.casing).parts := by
  rw [F.record_shape, Shape.parts_record_append]
  dsimp only [Shape.parts]
  rw [List.filter_cons_of_pos (by rw [F.kept]; rfl), List.map_cons]

theorem type_mem_parts {env : Environment ρ} (F : Flattening env) : F.field.type ∈ F.record.shape.parts := by
  rw [F.parts_record]
  exact List.mem_append_right _ List.mem_cons_self

/-- With inlined fields, the parts of the inner record are asked for in the place of the flattened field. -/
theorem parts_inlined {env : Environment ρ} (F : Flattening env) :
    F.inlined.shape.parts = (Shape.record F.before F.casing).parts ++ F.inner.shape.parts ++
      (Shape.record F.after F.casing).parts := by
  unfold inlined
  rw [Shape.parts_record_append, Shape.parts_record_append, Shape.parts_record_inlined, F.inner_shape]

variable {G : TypeGraph ρ}

/-- If the types of the record's fields are in a graph, so are those of the inner record's fields. -/
theorem parts_inner_mem (F : Flattening G.env) (hparts : ∀ u ∈ F.record.shape.parts, u ∈ G.refs) :
    ∀ u ∈ F.inner.shape.parts, u ∈ G.refs :=
  TypeGraph.parts_mem_of_points F.points fun _ hu =>
    TypeGraph.mem_of_mem_parts (hparts _ F.type_mem_parts) _ hu

/-- Nothing is asked for but what is in the graph already. -/
theorem parts_inlined_mem (F : Flattening G.env) (hparts : ∀ u ∈ F.record.shape.parts, u ∈ G.refs) :
    ∀ u ∈ F.inlined.shape.parts, u ∈ G.refs := by
  have hinner := F.parts_inner_mem hparts
  intro u hu
  rw [F.parts_record] at hparts
  rw [F.parts_inlined, List.mem_append, List.mem_append] at hu
  rcases hu with (hu | hu) | hu
  · exact hparts u (List.mem_append_left _ hu)
  · exact hinner u hu
  · exact hparts u (List.mem_append_right _ (List.mem_cons_of_mem _ hu))

end Flattening

namespace Compile

/-! ## Records by the schemas of types -/

/-- The fields that are not ignored, with the schemas of their types. -/
def answered (answer : TypeRef ρ → Schema) (fields : List (Field (TypeRef ρ))) : List (Answered ρ) :=
  (fields.filter fun field => !field.metadata.ignore).map fun field => (field, answer field.type)

@[simp] theorem answered_append (answer : TypeRef ρ → Schema) (fields more : List (Field (TypeRef ρ))) :
    answered answer (fields ++ more) = answered answer fields ++ answered answer more := by
  unfold answered
  rw [List.filter_append, List.map_append]

/-- A field that is not ignored comes with the schema of its type. -/
theorem answered_cons_of_kept (answer : TypeRef ρ → Schema) {field : Field (TypeRef ρ)}
    (fields : List (Field (TypeRef ρ))) (h : field.metadata.ignore = false) :
    answered answer (field :: fields) = (field, answer field.type) :: answered answer fields := by
  unfold answered
  rw [List.filter_cons_of_pos (by rw [h]; rfl), List.map_cons]

/-- Which fields are ignored does not depend on which are optional. -/
theorem answered_map_optional (answer : TypeRef ρ → Schema) (fields : List (Field (TypeRef ρ))) :
    answered answer (fields.map ({ · with optional := true })) =
      (answered answer fields).map fun e => ({ e.1 with optional := true }, e.2) := by
  unfold answered
  rw [List.filter_map, List.map_map, List.map_map]
  rfl

/-- The schema of a record from what its fields put in and what they demand. -/
def ofAnswered (policy : RequiredPolicy) (casing : Option Casing) (entries : List (Answered ρ)) : Schema :=
  .object (Dictionary.ofList (entries.flatMap (Answered.entries casing)))
    ((entries.flatMap (Answered.demanded policy casing)).foldl addRequired [])

/-- The schema of a record is made of what its fields put in and demand. -/
theorem build_record (env : Environment ρ) (policy : RequiredPolicy) {d : Descriptor (TypeRef ρ)}
    {fields : List (Field (TypeRef ρ))} {casing : Option Casing} (hd : d.shape = .record fields casing)
    (answer : TypeRef ρ → Schema) :
    build env policy d (d.shape.parts.map answer) =
      describe (ofAnswered policy casing (answered answer fields)) d.description := by
  -- Answers come in the order of the kept fields, so zipping them back gives each field its own.
  have hzip : (fields.filter fun field => !field.metadata.ignore).zip
      ((Shape.record fields casing).parts.map answer) = answered answer fields := by
    unfold Shape.parts answered
    rw [List.map_map, List.map_prod_left_eq_zip]
    rfl
  unfold build
  rw [hd]
  dsimp only [assemble]
  rw [assembleMembers_eq, hzip]
  rfl

/-! ## The flattened field and what stands in its place -/

/-- What a field puts in does not depend on whether it is optional. -/
theorem flatMap_entries_optional (casing : Option Casing) (es : List (Answered ρ)) :
    (es.map fun e => ({ e.1 with optional := true }, e.2)).flatMap (Answered.entries casing) =
      es.flatMap (Answered.entries casing) := by
  rw [List.flatMap_map]
  rfl

/-- Optional fields demand nothing. -/
theorem flatMap_demanded_optional (policy : RequiredPolicy) (casing : Option Casing) (es : List (Answered ρ)) :
    (es.map fun e => ({ e.1 with optional := true }, e.2)).flatMap (Answered.demanded policy casing) =
      [] := by
  rw [List.flatMap_eq_nil_iff]
  intro e he
  obtain ⟨e, -, rfl⟩ := List.mem_map.1 he
  have hlacking : Answered.Lacking (({ e.1 with optional := true }, e.2) : Answered ρ) := .inl rfl
  have hrequired : ¬ e.1.metadata.isRequired true policy = true := fun h => by
    cases (isRequired_iff.1 h).1
  unfold Answered.demanded
  rw [if_pos hlacking, if_neg hrequired, ite_self]

/-- Fields that may stand in the place of others: whatever is there before, they put in the same and demand
the same. -/
structure Alike (policy : RequiredPolicy) (casing : Option Casing) (es es' : List (Answered ρ)) : Prop where
  entries : ∀ d : Dictionary Schema, d.Ascending →
    d.insertAll (es.flatMap (Answered.entries casing)) = d.insertAll (es'.flatMap (Answered.entries casing))
  demanded : ∀ required,
    (es.flatMap (Answered.demanded policy casing)).foldl addRequired required =
      (es'.flatMap (Answered.demanded policy casing)).foldl addRequired required

variable {policy : RequiredPolicy} {casing : Option Casing} {es es' : List (Answered ρ)}

/-- In a record fields may be replaced by such that are alike. -/
theorem Alike.ofAnswered_eq (h : Alike policy casing es es') (before after : List (Answered ρ)) :
    ofAnswered policy casing (before ++ es ++ after) = ofAnswered policy casing (before ++ es' ++ after) := by
  have hentries := h.entries _ (Dictionary.ascending_ofList (before.flatMap (Answered.entries casing)))
  have hdemanded := h.demanded ((before.flatMap (Answered.demanded policy casing)).foldl addRequired [])
  unfold Dictionary.ofList at hentries
  unfold ofAnswered Dictionary.ofList
  simp only [List.flatMap_append, Dictionary.insertAll_append, List.foldl_append, hentries, hdemanded]

/-- A flattened field is alike to what stands in its place, if its type has the properties and the required
names of the inner record. -/
theorem alike_inlined (answer : TypeRef ρ → Schema) {field : Field (TypeRef ρ)}
    (hflatten : field.metadata.flatten = true) {fields : List (Field (TypeRef ρ))}
    (hproperties : (answer field.type).properties =
      (ofAnswered policy casing (answered answer fields)).properties)
    (hrequired : (answer field.type).requiredNames =
      (ofAnswered policy casing (answered answer fields)).requiredNames) :
    Alike policy casing [(field, answer field.type)] (answered answer (field.inlined fields)) := by
  have hmerged : Answered.Merged (field, answer field.type) := ⟨hflatten, by rw [hproperties]; rfl⟩
  have hentries : Answered.entries casing (field, answer field.type) =
      Dictionary.ofList ((answered answer fields).flatMap (Answered.entries casing)) := by
    unfold Answered.entries
    rw [if_pos hmerged, hproperties]
    rfl
  have hdemanded : Answered.demanded policy casing (field, answer field.type) =
      if Answered.Lacking (field, answer field.type) then []
      else ((answered answer fields).flatMap (Answered.demanded policy casing)).foldl addRequired [] := by
    unfold Answered.demanded
    rw [if_pos hmerged, hrequired]
    unfold ofAnswered
    rw [Schema.requiredNames_object]
    rfl
  have hlacking : Answered.Lacking (field, answer field.type) ↔
      (field.optional || field.metadata.omitEmpty) = true := (Bool.or_eq_true _ _ ▸ .rfl)
  -- Properties first, whose merged dictionary is the list of entries in order; then the names demanded,
  -- which an optional field drops.
  refine ⟨fun d hd => ?_, fun required => ?_⟩
  · have hsame : (answered answer (field.inlined fields)).flatMap (Answered.entries casing) =
        (answered answer fields).flatMap (Answered.entries casing) := by
      unfold Field.inlined
      split
      · rw [answered_map_optional, flatMap_entries_optional]
      · rfl
    rw [List.flatMap_singleton, hentries, Dictionary.insertAll_ofList hd, hsame]
  · rw [List.flatMap_singleton, hdemanded]
    unfold Field.inlined
    by_cases h : (field.optional || field.metadata.omitEmpty) = true
    · rw [if_pos h, if_pos (hlacking.2 h), answered_map_optional, flatMap_demanded_optional]
    · rw [if_neg h, if_neg (mt hlacking.1 h), foldl_addRequired_foldl]

/-! ## A shipment -/

namespace Shipment

/-- A record with a text that is required. -/
def country : TypeRef Unit :=
  .ready (.record "Country" [{ name := "code", type := Tree.text, metadata := { required := true } }] none)

/-- A record with a text that is required, and a country that is merged into it. -/
def address : TypeRef Unit :=
  .ready (.record "Address"
    [{ name := "city", type := Tree.text, metadata := { required := true } },
      { name := "country", type := country, metadata := { flatten := true } }] none)

def boxed : TypeRef Unit := .ready (.pointer address)

/-- A shipment has a city of its own, and an address that is merged into it. -/
def flattening : Flattening Tree.env where
  record := .record "Shipment"
    [{ name := "city", type := Tree.text, metadata := { description := some "where it is" } },
      { name := "target", type := boxed, metadata := { flatten := true } },
      { name := "note", type := Tree.text, metadata := { required := true } }] none
  before := [{ name := "city", type := Tree.text, metadata := { description := some "where it is" } }]
  field := { name := "target", type := boxed, metadata := { flatten := true } }
  after := [{ name := "note", type := Tree.text, metadata := { required := true } }]
  casing := none
  record_shape := rfl
  kept := rfl
  flatten := rfl
  pointers := 1
  inner := address.load Tree.env
  points := .step rfl (.refl _)
  fields := [{ name := "city", type := Tree.text, metadata := { required := true } },
    { name := "country", type := country, metadata := { flatten := true } }]
  inner_shape := rfl

theorem closed : ∀ t ∈ [boxed, address, country, Tree.text], ∀ u ∈ (t.load Tree.env).shape.mentions,
    u ∈ [boxed, address, country, Tree.text] :=
  TypeGraph.closed_of_places [[1], [3, 2], [3], []] rfl

/-- The types of a shipment's fields. -/
def graph : TypeGraph Unit := .ofList Tree.env [boxed, address, country, Tree.text] closed

theorem faithful : graph.Faithful := TypeGraph.faithful_ofList (by decide)

theorem consistent : graph.Consistent := TypeGraph.consistent_ofList (by decide)

theorem parts_mem : ∀ u ∈ flattening.record.shape.parts, u ∈ graph.refs := by
  intro u hu
  have hlist : u ∈ [Tree.text, boxed, Tree.text] := hu
  show u ∈ [boxed, address, country, Tree.text]
  simp only [List.mem_cons, List.not_mem_nil, or_false] at hlist ⊢
  tauto

end Shipment

/-! ## Users -/

namespace Users

def text : TypeRef String := .ready (.scalar "string" .text)

/-- Two records that both say that they are users. -/
def env : Environment String where
  load handle := .record "User" [{ name := if handle = "person" then "name" else "id", type := text }] none

def user : TypeRef String := .deferred "User" "user"

/-- The other one, under any identity. -/
def person (identity : String) : TypeRef String := .deferred identity "person"

/-- An account has the other user as its owner, and a user that is merged into it. -/
def flattening (identity : String) : Flattening env where
  record := .record "Account"
    [{ name := "owner", type := person identity },
      { name := "user", type := user, metadata := { flatten := true } }] none
  before := [{ name := "owner", type := person identity }]
  field := { name := "user", type := user, metadata := { flatten := true } }
  after := []
  casing := none
  record_shape := rfl
  kept := rfl
  flatten := rfl
  pointers := 0
  inner := user.load env
  points := .refl _
  fields := [{ name := "id", type := text }]
  inner_shape := rfl

theorem closed (identity : String) : ∀ t ∈ [person identity, user, text],
    ∀ u ∈ (t.load env).shape.mentions, u ∈ [person identity, user, text] :=
  TypeGraph.closed_of_places [[2], [2], []] rfl

/-- The types of an account's fields. -/
def graph (identity : String) : TypeGraph String :=
  .ofList env [person identity, user, text] (closed identity)

/-- With one identity for both users each of them has its own. -/
theorem faithful : (graph "User").Faithful := TypeGraph.faithful_ofList (by decide)

/-- With an identity that the other user does not have, no two types have one identity. -/
theorem consistent : (graph "Person").Consistent := TypeGraph.consistent_ofList (by decide)

end Users

/-! ## Flattened or inlined -/

/-- **A flattened field is as good as an inlined one.** In a faithful and consistent graph, let a record have a
flattened field with a record of the same casing behind it, through any number of pointers. If two calls for
the record, and for the one with the inner fields in the place of the field, are not truncated, they give one
schema: whatever else is flattened, which names coincide, and how deep the calls may go. -/
theorem run_inlined (G : TypeGraph ρ) (hf : G.Faithful) (hc : G.Consistent) (policy : RequiredPolicy)
    (F : Flattening G.env) (hparts : ∀ u ∈ F.record.shape.parts, u ∈ G.refs)
    {r r' : Request ρ} (hr : r.root.load G.env = F.record) (hr' : r'.root.load G.env = F.inlined)
    {maxDepth maxDepth' : Nat}
    (h : (r.run G.env policy (fresh maxDepth [])).2.context.isTruncated = false)
    (h' : (r'.run G.env policy (fresh maxDepth' [])).2.context.isTruncated = false) :
    (r'.run G.env policy (fresh maxDepth' [])).1 = (r.run G.env policy (fresh maxDepth [])).1 := by
  obtain ⟨answer, hanswer⟩ := exists_answer hc policy
  have hinlined := F.parts_inlined_mem hparts
  have hmade := made_of_not_truncated hf hc (by rw [hr]; exact hparts) h
  have hmade' := made_of_not_truncated hf hc (by rw [hr']; exact hinlined) h'
  rw [hr] at hmade
  rw [hr'] at hmade'
  -- the schema of the field's type is that of the inner record, but for the description
  have htype : ∃ description description', answer F.field.type =
      { describe (ofAnswered policy F.casing (answered answer F.fields)) description with
        description := description' } := by
    obtain ⟨answers, hanswers, -⟩ := hmade
    obtain ⟨a, -, ha⟩ := exists_right_of_mem hanswers F.type_mem_parts
    obtain ⟨s, description, hs, rfl⟩ := ha.made.of_points F.points
    refine ⟨F.inner.description, description, ?_⟩
    rw [← build_record G.env policy F.inner_shape, ← hs.eq_build hanswer (F.parts_inner_mem hparts)]
    exact (hanswer _ (hparts _ F.type_mem_parts) _ ha).symm
  have halike : Alike policy F.casing [(F.field, answer F.field.type)]
      (answered answer (F.field.inlined F.fields)) := by
    obtain ⟨description, description', htype⟩ := htype
    exact alike_inlined answer F.flatten (by rw [htype]; rfl) (by rw [htype]; rfl)
  rw [hmade.eq_build hanswer hparts, hmade'.eq_build hanswer hinlined,
    build_record G.env policy F.record_shape, build_record G.env policy rfl, answered_append,
    answered_append, ← halike.ofAnswered_eq, answered_append, answered_cons_of_kept answer F.after F.kept,
    List.append_assoc]
  rfl

/-- A shipment with its address flattened needs two levels more. -/
theorem run_inlined_shipment :
    Shipment.graph.Faithful ∧ Shipment.graph.Consistent ∧
      (compile Tree.env .tagged Shipment.flattening.record (fresh 5 [])).2.context.isTruncated = false ∧
      (compile Tree.env .tagged Shipment.flattening.inlined (fresh 3 [])).2.context.isTruncated = false ∧
      (compile Tree.env .tagged Shipment.flattening.inlined (fresh 3 [])).1 =
        (compile Tree.env .tagged Shipment.flattening.record (fresh 5 [])).1 := by
  refine ⟨Shipment.faithful, Shipment.consistent, by decide +kernel, by decide +kernel, ?_⟩
  have hrecord : (Request.descriptor Shipment.flattening.record).root.load Tree.env =
      Shipment.flattening.record := rfl
  have hinlined : (Request.descriptor Shipment.flattening.inlined).root.load Tree.env =
      Shipment.flattening.inlined := rfl
  exact run_inlined Shipment.graph Shipment.faithful Shipment.consistent .tagged Shipment.flattening
    Shipment.parts_mem hrecord hinlined (by decide +kernel) (by decide +kernel)

/-- Where two types have one identity, or a type is loaded under an identity that it does not have, what was
compiled for the one is taken for the other; so a flattened field may give something else than inlined ones. -/
theorem run_inlined_ne :
    ((Users.graph "User").Faithful ∧ (Users.flattening "User").Differs .tagged 10) ∧
      (Users.graph "Person").Consistent ∧ (Users.flattening "Person").Differs .tagged 10 := by
  refine ⟨⟨Users.faithful, ?_⟩, Users.consistent, ?_⟩
  · exact ⟨by decide +kernel, by decide +kernel,
      Schema.ne_of_same (by decide +kernel) (by decide +kernel)⟩
  · exact ⟨by decide +kernel, by decide +kernel,
      Schema.ne_of_same (by decide +kernel) (by decide +kernel)⟩

end Compile

end PayloadSchema
