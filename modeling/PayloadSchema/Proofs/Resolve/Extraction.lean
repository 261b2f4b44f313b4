import PayloadSchema.Engine.Basic
import PayloadSchema.Proofs.Compile.Storage
import PayloadSchema.Proofs.Resolve.Memory

/-!
# Descriptors from the sources

In a descriptor from the sources all metadata of fields comes from attributes and all references to what is
loaded later are made of a declaration, and so it is behind all of its references (`TypeRef.Extracted`). This does
not depend on what is answered to the questions of a search (`Asking.Ensures`): a resolver may remember files that
have changed since. What a resolver compiles can therefore be stored.

* `FileScope.ensures_walk`, `Instantiation.ensures_load` — the references and descriptors of the sources;
* `Resolver.compile_storable`, `Engine.resolveSource_storable` — the schemas that are compiled and kept.
-/

namespace PayloadSchema

open Compile (fieldMetadata AllCached)
open Schema (Everywhere PartsStorable)

/-! ## Whatever is answered -/

namespace Asking

variable {α β : Type} {P : α → Prop} {Q : β → Prop}

/-- The outcome of a search has a property, whatever its questions are answered. -/
def Ensures (P : α → Prop) : Asking α → Prop
  | done a => P a
  | locate _ next => ∀ found, Ensures P (next found)
  | scope _ next => ∀ answer, Ensures P (next answer)
  | read _ next => ∀ answer, Ensures P (next answer)

namespace Ensures

protected theorem pure {a : α} (h : P a) : Ensures P (pure a) := h

/-- What holds of every outcome holds of that of a search. -/
theorem of_forall (h : ∀ a, P a) (x : Asking α) : Ensures P x := by
  induction x with
  | done a => exact h a
  | locate _ _ ih => exact ih
  | scope _ _ ih => exact ih
  | read _ _ ih => exact ih

/-- A property of an outcome is carried on to what is searched for with it. -/
protected theorem bind {x : Asking α} {f : α → Asking β} (hx : Ensures P x) (hf : ∀ a, P a → Ensures Q (f a)) :
    Ensures Q (x >>= f) := by
  induction x with
  | done a => exact hf a hx
  | locate _ _ ih | scope _ _ ih | read _ _ ih =>
      intro answer
      exact ih answer (hx answer)

/-- What is asked first does not matter. -/
theorem after {x : Asking α} {f : α → Asking β} (hf : ∀ a, Ensures Q (f a)) : Ensures Q (x >>= f) :=
  (of_forall (fun _ => trivial) x).bind (P := fun _ => True) fun a _ => hf a

protected theorem map {x : Asking α} {f : α → β} (hx : Ensures P x) (hf : ∀ a, P a → Q (f a)) :
    Ensures Q (f <$> x) := hx.bind hf

/-- If each search ensures a property, all outcomes have it. -/
protected theorem all {xs : List (Asking α)} (h : ∀ x ∈ xs, Ensures P x) :
    Ensures (fun as => ∀ a ∈ as, P a) (all xs) := by
  induction xs with
  | nil => exact List.forall_mem_nil _
  | cons x xs ih =>
      obtain ⟨hx, hxs⟩ := List.forall_mem_cons.1 h
      refine hx.bind ?_
      intro a ha
      refine (ih hxs).bind ?_
      intro as has
      exact List.forall_mem_cons.2 ⟨ha, has⟩

/-- Whatever a resolver remembers, its answer has the property. -/
protected theorem answer {x : Asking α} (hx : Ensures P x) (files : Files) (r : Resolver) :
    P (Resolver.answer files x r).1 := by
  induction x generalizing r with
  | done a => exact hx
  | locate _ _ ih => exact ih _ (hx _) _
  | scope _ _ ih => exact ih _ (hx _) _
  | read _ _ ih => exact ih _ (hx _) r

end Ensures

end Asking

open Asking (Ensures)

/-! ## Extracted types -/

/-- All metadata of fields comes from attributes. -/
def Shape.FromAttributes {τ : Type} (shape : Shape τ) : Prop :=
  ∀ m ∈ fieldMetadata shape, ∃ attributes, m = .ofAttributes attributes

/-- References of the sources: the metadata comes from attributes here, behind all references, and in the
arguments of what is loaded later, which is known by the identity of its declaration with these arguments. -/
inductive TypeRef.Extracted : SourceType → Prop where
  | ready {d : Descriptor SourceType} (metadata : d.shape.FromAttributes)
    (references : ∀ t ∈ d.shape.references, Extracted t) : Extracted (.ready d)
  | deferred {i : Instantiation} (arguments : ∀ t ∈ i.arguments, Extracted t) : Extracted (.deferred i.identity i)

/-- Descriptors of the sources. -/
structure Descriptor.Extracted (d : Descriptor SourceType) : Prop where
  metadata : d.shape.FromAttributes
  references : ∀ t ∈ d.shape.references, t.Extracted

theorem Descriptor.Extracted.ready {d : Descriptor SourceType} (h : d.Extracted) :
    TypeRef.Extracted (.ready d) :=
  .ready h.metadata h.references

/-- The parts of a descriptor of the sources are of the sources. -/
theorem Descriptor.Extracted.parts {d : Descriptor SourceType} (h : d.Extracted) :
    ∀ t ∈ d.shape.parts, t.Extracted :=
  fun t ht => h.references t (Shape.mem_references_of_mem_parts ht)

/-- A shape that is no record has no fields. -/
theorem Descriptor.extracted_of_references {d : Descriptor SourceType} (hfields : fieldMetadata d.shape = [])
    (hreferences : ∀ t ∈ d.shape.references, t.Extracted) : d.Extracted where
  metadata := by
    unfold Shape.FromAttributes
    rw [hfields]
    exact List.forall_mem_nil _
  references := hreferences

/-- A type with one reference is of the sources if the reference is. -/
theorem Descriptor.extracted_around {d : Descriptor SourceType} {t : SourceType}
    (hfields : fieldMetadata d.shape = []) (hreferences : d.shape.references = [t]) (ht : t.Extracted) :
    d.Extracted :=
  extracted_of_references hfields (hreferences ▸ List.forall_mem_singleton.2 ht)

/-- A type without fields and references is of the sources. -/
theorem Descriptor.extracted_leaf {d : Descriptor SourceType} (hfields : fieldMetadata d.shape = [])
    (hreferences : d.shape.references = []) : d.Extracted :=
  extracted_of_references hfields (hreferences ▸ List.forall_mem_nil _)

/-- A map is of the sources if its key and its values are. -/
theorem Descriptor.extracted_map {key value : SourceType} (hkey : key.Extracted) (h : value.Extracted) :
    (Descriptor.map key value).Extracted :=
  extracted_of_references rfl (List.forall_mem_cons.2 ⟨hkey, List.forall_mem_singleton.2 h⟩)

/-- All that names are bound to is of the sources. -/
def Bindings.Extracted (bindings : Bindings) : Prop := ∀ entry ∈ bindings, entry.2.Extracted

theorem unsupportedType_extracted (display reason : String) : (unsupportedType display reason).Extracted :=
  (Descriptor.extracted_leaf rfl rfl).ready

theorem Instantiation.toType_extracted {i : Instantiation} (h : ∀ t ∈ i.arguments, t.Extracted) :
    i.toType.Extracted := .deferred h

/-- The parameters of a declaration are bound to its arguments or left open, and the name of the type itself
to its reference. -/
theorem Instantiation.bindings_extracted {i : Instantiation} (h : ∀ t ∈ i.arguments, t.Extracted)
    (parameters : List String) : (i.bindings parameters).Extracted := by
  have hbound (names : List String) (types : List SourceType) (h : ∀ t ∈ types, t.Extracted) :
      Bindings.Extracted (bindings.bound names types) := by
    induction names generalizing types with
    | nil => exact List.forall_mem_nil _
    | cons name names ih =>
        cases types with
        | nil =>
            -- a parameter without an argument stands for any value
            have hopen : (TypeRef.ready (.dynamic name) : SourceType).Extracted :=
              (Descriptor.extracted_leaf rfl rfl).ready
            exact List.forall_mem_cons.2 ⟨hopen, ih [] (List.forall_mem_nil _)⟩
        | cons type types =>
            obtain ⟨htype, htypes⟩ := List.forall_mem_cons.1 h
            exact List.forall_mem_cons.2 ⟨htype, ih types htypes⟩
  refine List.forall_mem_cons.2 ⟨toType_extracted h, ?_⟩
  intro entry hentry
  exact hbound parameters i.arguments h entry (List.mem_reverse.1 hentry)

/-! ## Written types -/

/-- An argument of the sources is found at its place; where there is none it is left open. -/
theorem ensures_argumentAt {arguments : List (Asking SourceType)}
    (h : ∀ x ∈ arguments, Ensures TypeRef.Extracted x) (index : Nat) :
    Ensures TypeRef.Extracted (argumentAt arguments index) := by
  unfold argumentAt
  cases hget : arguments[index]? with
  | none => exact .pure (Descriptor.extracted_leaf rfl rfl).ready
  | some x => exact h x (List.mem_of_getElem? hget)

/-- A well-known type with arguments of the sources is of the sources. -/
theorem WellKnown.ensures_toType {arguments : List (Asking SourceType)}
    (h : ∀ x ∈ arguments, Ensures TypeRef.Extracted x) (name : String) (known : WellKnown) :
    Ensures TypeRef.Extracted (known.toType name arguments) := by
  have hfirst := ensures_argumentAt h 0
  have hsecond := ensures_argumentAt h 1
  cases known with
  | optional =>
      refine hfirst.bind ?_
      intro t ht
      exact .pure (Descriptor.extracted_around rfl rfl ht).ready
  | pointer =>
      refine hfirst.bind ?_
      intro t ht
      exact .pure (Descriptor.extracted_around rfl rfl ht).ready
  | list =>
      refine hfirst.bind ?_
      intro t ht
      exact .pure (Descriptor.extracted_around rfl rfl ht).ready
  | map =>
      refine hfirst.bind ?_
      intro key hkey
      refine hsecond.bind ?_
      intro value hvalue
      exact .pure (Descriptor.extracted_map hkey hvalue).ready
  | scalar s => exact .pure (Descriptor.extracted_leaf rfl rfl).ready
  | json => exact .pure (Descriptor.extracted_leaf rfl rfl).ready
  | jsonMap =>
      have hkey : (scalarType "String" .text).Extracted := (Descriptor.extracted_leaf rfl rfl).ready
      have hvalue : jsonType.Extracted := (Descriptor.extracted_leaf rfl rfl).ready
      exact .pure (Descriptor.extracted_map hkey hvalue).ready

namespace FileScope

variable {scope : FileScope} {bindings : Bindings}

/-- A name that is well known becomes a reference of the sources. -/
theorem ensures_wellKnown? (names : List String) {arguments : List (Asking SourceType)}
    (h : ∀ x ∈ arguments, Ensures TypeRef.Extracted x) :
    Ensures (fun found => ∀ t, found = some t → t.Extracted) (scope.wellKnown? names arguments) := by
  have hnone : Ensures (fun found : Option SourceType => ∀ t, found = some t → t.Extracted) (pure none) :=
    .pure fun _ ht => nomatch ht
  have hsome {t : SourceType} (ht : t.Extracted) :
      Ensures (fun found : Option SourceType => ∀ t, found = some t → t.Extracted) (pure (some t)) :=
    .pure fun _ heq => Option.some.inj heq ▸ ht
  unfold wellKnown?
  dsimp only
  split
  · exact hnone
  · split
    · exact hnone
    next known _ =>
      refine (known.ensures_toType h _).bind ?_
      intro t ht
      split
      · -- A declaration found through a glob hides the name; that only turns an answer into none.
        refine .after ?_
        intro declaration
        split
        · exact hnone
        · exact hsome ht
      · exact hsome ht

/-- A name becomes a reference of the sources, whether it is bound, well known, declared or none of these. -/
theorem ensures_named (hbindings : bindings.Extracted) (names : List String) (display : String)
    {arguments : List (Asking SourceType)} (h : ∀ x ∈ arguments, Ensures TypeRef.Extracted x) :
    Ensures TypeRef.Extracted (scope.named bindings names display arguments) := by
  unfold named
  split
  next t hbound =>
    -- a bound name stands for one of the references that are bound
    unfold bound? at hbound
    split at hbound
    · obtain ⟨before, after, rfl, -⟩ := List.lookup_eq_some_iff.1 hbound
      have ht : t.Extracted := hbindings _ (List.mem_append_right _ List.mem_cons_self)
      exact .pure ht
    · cases hbound
  next =>
    refine (ensures_wellKnown? names h).bind ?_
    intro found hfound
    split
    next t => exact .pure (hfound t rfl)
    next =>
      -- whatever declaration is found, the reference is made of it and of the arguments
      refine .after ?_
      intro declaration
      split
      · refine (Ensures.all h).bind ?_
        intro arguments harguments
        exact .pure (Instantiation.toType_extracted harguments)
      · exact .pure (unsupportedType_extracted _ _)

mutual
/-- A written type becomes a reference of the sources. -/
theorem ensures_walk (hbindings : bindings.Extracted) : ∀ type : Source.TypeExpr,
    Ensures TypeRef.Extracted (scope.walk bindings type)
  | .path true path => by
      rw [walk]
      exact .pure (unsupportedType_extracted _ _)
  | .path false ⟨leading, segments⟩ => by
      rw [walk]
      exact ensures_named hbindings _ _ (ensures_walkLast hbindings segments)
  -- References, pointers and slices wrap one walked type.
  | .reference target => by
      rw [walk]
      refine (ensures_walk hbindings target).bind ?_
      intro t ht
      exact .pure (Descriptor.extracted_around rfl rfl ht).ready
  | .pointer target => by
      rw [walk]
      refine (ensures_walk hbindings target).bind ?_
      intro t ht
      exact .pure (Descriptor.extracted_around rfl rfl ht).ready
  | .slice element => by
      rw [walk]
      refine (ensures_walk hbindings element).bind ?_
      intro t ht
      exact .pure (Descriptor.extracted_around rfl rfl ht).ready
  | .array element => by
      rw [walk]
      refine (ensures_walk hbindings element).bind ?_
      intro t ht
      exact .pure (Descriptor.extracted_around rfl rfl ht).ready
  | .parenthesized inner => by
      rw [walk]
      exact ensures_walk hbindings inner
  | .tuple [] => .pure (unsupportedType_extracted _ _)
  | .tuple (_ :: _) => .pure (unsupportedType_extracted _ _)
  | .function _ => .pure (unsupportedType_extracted _ _)
  | .traitObject _ => .pure (unsupportedType_extracted _ _)
  | .implTrait => .pure (unsupportedType_extracted _ _)
  | .never => .pure (unsupportedType_extracted _ _)
  | .inferred => .pure (unsupportedType_extracted _ _)
  | .macroCall => .pure (unsupportedType_extracted _ _)
  | .other => .pure (unsupportedType_extracted _ _)
/-- The arguments of the last segment of a path become references of the sources. -/
theorem ensures_walkLast (hbindings : bindings.Extracted) : ∀ segments : List (Source.Segment Source.TypeExpr),
    ∀ x ∈ scope.walkLast bindings segments, Ensures TypeRef.Extracted x
  | [] => by
      rw [walkLast]
      exact List.forall_mem_nil _
  | [⟨_, _, types⟩] => by
      rw [walkLast]
      exact ensures_walkAll hbindings types
  | _ :: segment :: segments => by
      rw [walkLast]
      exact ensures_walkLast hbindings (segment :: segments)
/-- Written types become references of the sources. -/
theorem ensures_walkAll (hbindings : bindings.Extracted) : ∀ types : List Source.TypeExpr,
    ∀ x ∈ scope.walkAll bindings types, Ensures TypeRef.Extracted x
  | [] => by
      rw [walkAll]
      exact List.forall_mem_nil _
  | type :: types => by
      rw [walkAll]
      exact List.forall_mem_cons.2 ⟨ensures_walk hbindings type, ensures_walkAll hbindings types⟩
end

/-! ## Declarations -/

/-- Fields with references of the sources, and with metadata from attributes. -/
def FieldsExtracted (fields : List (Field SourceType)) : Prop :=
  ∀ field ∈ fields, field.type.Extracted ∧ ∃ attributes, field.metadata = .ofAttributes attributes

/-- The fields of a declaration are of the sources. -/
theorem ensures_buildFields (hbindings : bindings.Extracted) (fields : List Source.FieldDecl) :
    Ensures FieldsExtracted (scope.buildFields bindings fields) := by
  refine Ensures.all ?_
  intro x hx
  obtain ⟨f, -, rfl⟩ := List.mem_map.1 hx
  refine (ensures_walk hbindings f.type).bind ?_
  intro t ht
  exact .pure ⟨ht, f.attributes, rfl⟩

/-- A record with fields of the sources is of the sources. -/
theorem FieldsExtracted.record {fields : List (Field SourceType)} (h : FieldsExtracted fields)
    (identity : String) (casing : Option Casing) : (Descriptor.record identity fields casing).Extracted where
  metadata := by
    intro m hm
    obtain ⟨field, hfield, rfl⟩ := List.mem_map.1 hm
    exact (h field hfield).2
  references := by
    intro t ht
    obtain ⟨field, hfield, rfl⟩ := List.mem_map.1 ht
    exact (h field hfield).1

/-- A structure is built of the sources. -/
theorem ensures_buildStruct (hbindings : bindings.Extracted) (identity : String) (d : Source.StructDecl) :
    Ensures Descriptor.Extracted (scope.buildStruct bindings identity d) := by
  -- the description of the container is no part of the shape
  have hdescribe {d : Descriptor SourceType} (hd : d.Extracted) (description : Option String) :
      Ensures Descriptor.Extracted (pure (d.withDescription description)) :=
    .pure ⟨hd.metadata, hd.references⟩
  unfold buildStruct
  dsimp only
  split
  · refine (ensures_buildFields hbindings _).bind ?_
    intro fields hfields
    have hrecord := hfields.record identity (ContainerMetadata.ofAttributes d.attributes).casing
    exact hdescribe hrecord _
  · refine (ensures_walk hbindings _).bind ?_
    intro target htarget
    have hpointer : ((Descriptor.pointer target).withIdentity identity).Extracted :=
      Descriptor.extracted_around rfl rfl htarget
    exact hdescribe hpointer _
  · exact hdescribe (Descriptor.extracted_leaf rfl rfl) _
  · exact hdescribe (Descriptor.extracted_leaf rfl rfl) _

/-- The payload of a variant is of the sources. -/
theorem ensures_buildVariant (hbindings : bindings.Extracted) (identity : String) (casing : Option Casing)
    (variant : Source.VariantDecl) :
    Ensures (fun v : Variant SourceType => ∀ t, v.payload = some t → t.Extracted)
      (scope.buildVariant bindings identity casing variant) := by
  have hpayload (identity : String) (fields : Source.Fields) :
      Ensures (fun payload : Option SourceType => ∀ t, payload = some t → t.Extracted)
        (scope.buildPayload bindings identity fields) := by
    have hsome {t : SourceType} (ht : t.Extracted) : ∀ t', some t = some t' → t'.Extracted := by
      rintro _ ⟨⟩
      exact ht
    unfold buildPayload
    split
    · apply Ensures.pure
      intro t ht
      cases ht
    · refine (ensures_walk hbindings _).map ?_
      intro t ht
      exact hsome ht
    · exact .pure (hsome (unsupportedType_extracted _ _))
    · refine (ensures_buildFields hbindings _).bind ?_
      intro fields hfields
      have hrecord := hfields.record identity none
      exact .pure (hsome hrecord.ready)
  refine (hpayload _ _).bind ?_
  intro payload h
  exact .pure h

/-- An enumeration is built of the sources. -/
theorem ensures_buildEnum (hbindings : bindings.Extracted) (identity : String) (d : Source.EnumDecl) :
    Ensures Descriptor.Extracted (scope.buildEnum bindings identity d) := by
  refine (Ensures.all (P := fun v : Variant SourceType => ∀ t, v.payload = some t → t.Extracted) ?_).bind ?_
  · intro x hx
    obtain ⟨variant, -, rfl⟩ := List.mem_map.1 hx
    exact ensures_buildVariant hbindings _ _ variant
  · intro variants hvariants
    -- an enumeration refers to what its variants carry
    refine .pure (Descriptor.extracted_of_references rfl ?_)
    intro t ht
    obtain ⟨v, hv, ht⟩ := List.mem_filterMap.1 ht
    exact hvariants v hv t ht

/-- An alias is built of the sources. -/
theorem ensures_buildAlias (hbindings : bindings.Extracted) (identity : String) (d : Source.AliasDecl) :
    Ensures Descriptor.Extracted (scope.buildAlias bindings identity d) := by
  refine (ensures_walk hbindings d.type).bind ?_
  intro target htarget
  exact .pure (Descriptor.extracted_around rfl rfl htarget)

/-- Outcomes that are descriptors of the sources, or failures. -/
def OutcomeExtracted (outcome : Except Failure (Descriptor SourceType)) : Prop :=
  ∀ d, outcome = .ok d → d.Extracted

theorem OutcomeExtracted.ok {d : Descriptor SourceType} (h : d.Extracted) : OutcomeExtracted (.ok d) := by
  rintro _ ⟨⟩
  exact h

theorem outcomeExtracted_error (failure : Failure) : OutcomeExtracted (.error failure) := by
  rintro _ ⟨⟩

/-- What is declared is built of the sources, if it is a data type. -/
theorem ensures_buildItem {i : Instantiation} (h : ∀ t ∈ i.arguments, t.Extracted) (item : Source.Item) :
    Ensures OutcomeExtracted (scope.buildItem i item) := by
  have hbindings := Instantiation.bindings_extracted h
  have hok (d : Descriptor SourceType) (hd : d.Extracted) : OutcomeExtracted (.ok d) := .ok hd
  cases item with
  | struct d =>
      have hbuilt : Ensures Descriptor.Extracted (scope.buildStruct (i.bindings d.parameters) i.identity d) :=
        ensures_buildStruct (hbindings _) _ d
      exact hbuilt.map hok
  | enum d =>
      have hbuilt : Ensures Descriptor.Extracted (scope.buildEnum (i.bindings d.parameters) i.identity d) :=
        ensures_buildEnum (hbindings _) _ d
      exact hbuilt.map hok
  | typeAlias d =>
      have hbuilt : Ensures Descriptor.Extracted (scope.buildAlias (i.bindings d.parameters) i.identity d) :=
        ensures_buildAlias (hbindings _) _ d
      exact hbuilt.map hok
  | _ => exact .pure (outcomeExtracted_error _)

end FileScope

open FileScope (OutcomeExtracted outcomeExtracted_error)

/-! ## What is loaded -/

namespace Instantiation

variable {i : Instantiation}

/-- What is behind a declaration is of the sources, if there is anything. -/
theorem ensures_build (h : ∀ t ∈ i.arguments, t.Extracted) : Ensures OutcomeExtracted i.build := by
  unfold build
  refine .after ?_
  intro source
  split
  · exact .pure (outcomeExtracted_error _)
  · refine .after ?_
    intro scope
    split
    · exact .pure (outcomeExtracted_error _)
    · split
      · exact .pure (outcomeExtracted_error _)
      · exact FileScope.ensures_buildItem h _

/-- What is loaded for a declaration is of the sources. -/
theorem ensures_load (h : ∀ t ∈ i.arguments, t.Extracted) : Ensures Descriptor.Extracted i.load := by
  refine (ensures_build h).map ?_
  intro outcome houtcome
  cases outcome with
  | ok d => exact houtcome d rfl
  | error failure =>
      -- a failure is loaded as a type that says why there is none, and refers to nothing
      exact Descriptor.extracted_leaf rfl rfl

end Instantiation

/-- What is behind a reference of the sources is of the sources. -/
theorem TypeRef.Extracted.ensures_fetch {t : SourceType} (h : t.Extracted) :
    Ensures Descriptor.Extracted t.fetch := by
  cases h with
  | ready metadata references => exact .pure ⟨metadata, references⟩
  | deferred arguments => exact Instantiation.ensures_load arguments

/-- What a declared type is resolved to is of the sources. -/
theorem ensures_resolveDeclared (file : FilePath) (name : String) :
    Ensures OutcomeExtracted (resolveDeclared file name) := by
  unfold resolveDeclared
  refine .after ?_
  intro scope
  split
  · exact .pure (outcomeExtracted_error _)
  · split
    · exact Instantiation.ensures_build (List.forall_mem_nil _)
    · exact .pure (outcomeExtracted_error _)

/-- What a written type is resolved to is of the sources. -/
theorem ensures_resolveExpression (file : FilePath) (text : String) :
    Ensures OutcomeExtracted (resolveExpression file text) := by
  unfold resolveExpression
  split
  · exact .pure (outcomeExtracted_error _)
  · refine .after ?_
    intro scope
    split
    · exact .pure (outcomeExtracted_error _)
    · refine (FileScope.ensures_walk (List.forall_mem_nil _) _).bind ?_
      intro t ht
      refine ht.ensures_fetch.bind ?_
      intro d hd
      refine .pure ?_
      unfold outcome
      split
      · exact outcomeExtracted_error _
      · exact .ok hd

/-! ## Compiled schemas -/

namespace Resolver

variable {files : Files} {r : Resolver}

/-- Whatever a resolver remembers, it loads what is of the sources. -/
theorem extracted_load {t : SourceType} (h : t.Extracted) : (t.load (r.environment files)).Extracted := by
  rw [load_environment]
  exact h.ensures_fetch.answer files r

/-- What a resolver compiles of a descriptor of the sources can be stored, and so can what it keeps, if all
that is cached before can. -/
theorem compile_storable (files : Files) (r : Resolver) (policy : RequiredPolicy) (maxDepth : Nat)
    {d : Descriptor SourceType} (hd : d.Extracted) {cache : SchemaCache}
    (hcache : AllCached (Everywhere PartsStorable) cache) :
    (r.compile files policy maxDepth d cache).1.1.Everywhere PartsStorable ∧
      AllCached (Everywhere PartsStorable) (r.compile files policy maxDepth d cache).1.2.cache := by
  have hparts (t : SourceType) (ht : t.Extracted) :
      ∀ u ∈ (t.load (r.environment files)).shape.parts, u.Extracted := (extracted_load ht).parts
  have hmetadata (t : SourceType) (ht : t.Extracted) :
      (t.load (r.environment files)).shape.FromAttributes := (extracted_load ht).metadata
  exact Compile.compileRef_storable_among (R := TypeRef.Extracted) (r.environment files) policy hparts hmetadata
    hd.ready _ hcache

end Resolver

/-- The schemas of the sources that an engine answers with and keeps can be stored. -/
theorem Engine.resolveSource_storable (e : Engine) (files : Files) (file : FilePath) (expression : String)
    {cache : SchemaCache} (hcache : AllCached (Everywhere PartsStorable) cache) :
    (∀ s, (e.resolveSource files file expression cache).1 = .ok s → s.Everywhere PartsStorable) ∧
      AllCached (Everywhere PartsStorable) (e.resolveSource files file expression cache).2.2 := by
  have hfound := (ensures_resolveExpression (e.settings.root.join file) expression).answer files e.resolver
  unfold resolveSource
  generalize Resolver.answer files (resolveExpression (e.settings.root.join file) expression) e.resolver =
    result at hfound
  rcases result with ⟨failure | descriptor, resolver⟩
  · refine ⟨?_, hcache⟩
    intro s hs
    cases hs
  · obtain ⟨hschema, hkept⟩ := Resolver.compile_storable files resolver e.settings.policy
      e.settings.maxDepth (hfound descriptor rfl) hcache
    refine ⟨?_, hkept⟩
    intro s hs
    rw [← Except.ok.inj hs]
    exact hschema

end PayloadSchema
