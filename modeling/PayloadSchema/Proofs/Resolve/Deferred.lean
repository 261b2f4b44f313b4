import PayloadSchema.Live.Basic
import PayloadSchema.Proofs.Resolve.Extraction
import PayloadSchema.Proofs.Resolve.Substitution

/-!
# Deferred references

A reference is known by an identity before anything behind it is read: that of the declaration with the arguments
it was made with. Loading it comes to the identity a second time, from what the files say by then, in a descriptor
of each kind and in the one that says why there is none. The two agree whatever has become of the files.

* `FileScope.ensures_identity_buildItem`, `Instantiation.ensures_identity_load` — what is built and loaded;
* `Arises` — the references that arise while files and resolvers change;
* `identity_load` — what is loaded has the identity of the reference, for references of the sources and for
  those to live types.
-/

namespace PayloadSchema

open Asking (Ensures)

/-! ## What is built -/

namespace FileScope

variable (scope : FileScope)

/-- A description is put onto a descriptor without a change to its identity. -/
theorem ensures_identity_described {identity : String} {built : Descriptor SourceType}
    (hbuilt : built.identity = identity) (description : Option String) :
    Ensures (fun d => d.identity = identity) (pure (built.withDescription description)) := by
  have hdescribed : (built.withDescription description).identity = built.identity := rfl
  exact .pure (hdescribed.trans hbuilt)

/-- A structure is built under the identity that is given, whatever its fields are. -/
theorem ensures_identity_buildStruct (bindings : Bindings) (identity : String) (d : Source.StructDecl) :
    Ensures (fun built => built.identity = identity) (scope.buildStruct bindings identity d) := by
  have hunsupported (reason : String) :
      (Descriptor.unsupported identity reason : Descriptor SourceType).identity = identity := rfl
  unfold buildStruct
  dsimp only
  split
  next fields =>
    refine .after ?_
    intro types
    have hrecord : (Descriptor.record identity types (ContainerMetadata.ofAttributes d.attributes).casing).identity =
        identity := rfl
    exact ensures_identity_described hrecord _
  next field =>
    refine .after ?_
    intro target
    -- the identity of the pointer itself is that of its target, and is replaced
    have hpointer : ((Descriptor.pointer target).withIdentity identity).identity = identity := rfl
    exact ensures_identity_described hpointer _
  next => exact ensures_identity_described (hunsupported _) _
  next => exact ensures_identity_described (hunsupported _) _

/-- An enumeration is built under the identity that is given. -/
theorem ensures_identity_buildEnum (bindings : Bindings) (identity : String) (d : Source.EnumDecl) :
    Ensures (fun built => built.identity = identity) (scope.buildEnum bindings identity d) := by
  unfold buildEnum
  refine .after ?_
  intro variants
  exact .pure rfl

/-- An alias is built under the identity that is given, not that of its target. -/
theorem ensures_identity_buildAlias (bindings : Bindings) (identity : String) (d : Source.AliasDecl) :
    Ensures (fun built => built.identity = identity) (scope.buildAlias bindings identity d) := by
  unfold buildAlias
  refine .after ?_
  intro target
  have halias : ((Descriptor.pointer target).withIdentity identity).identity = identity := rfl
  exact ensures_identity_described halias _

/-- What a reference takes from the outcome for an item has its identity, also if the item is no data type. -/
theorem ensures_identity_buildItem (i : Instantiation) (item : Source.Item) :
    Ensures (fun outcome => (i.loaded outcome).identity = i.identity) (scope.buildItem i item) := by
  -- a descriptor that was built is taken as it is
  have hloaded (d : Descriptor SourceType) (hd : d.identity = i.identity) :
      (i.loaded (.ok d)).identity = i.identity := hd
  cases item with
  | struct d =>
      have hbuilt := scope.ensures_identity_buildStruct (i.bindings d.parameters) i.identity d
      exact hbuilt.map hloaded
  | enum d =>
      have hbuilt := scope.ensures_identity_buildEnum (i.bindings d.parameters) i.identity d
      exact hbuilt.map hloaded
  | typeAlias d =>
      have hbuilt := scope.ensures_identity_buildAlias (i.bindings d.parameters) i.identity d
      exact hbuilt.map hloaded
  | use | module | value | closed =>
      -- a failure is loaded as a type of the identity that says why there is none
      have hfailed (failure : Failure) : (i.loaded (.error failure)).identity = i.identity := rfl
      exact .pure (hfailed _)

end FileScope

/-! ## What is loaded -/

namespace Instantiation

variable (i : Instantiation)

/-- The file may be gone or broken by now, and may no longer declare the name. -/
theorem ensures_identity_build :
    Ensures (fun outcome => (i.loaded outcome).identity = i.identity) i.build := by
  -- A reason takes the place of the shape, not of the identity.
  have hfailed (failure : Failure) :
      Ensures (fun outcome => (i.loaded outcome).identity = i.identity) (pure (.error failure)) := .pure rfl
  unfold build
  refine .after ?_
  intro source
  split
  · exact hfailed _
  · refine .after ?_
    intro scope
    split
    · exact hfailed _
    · split
      · exact hfailed _
      · exact FileScope.ensures_identity_buildItem _ i _

/-- What is loaded for a declaration with its arguments has the identity that they were given. -/
theorem ensures_identity_load : Ensures (fun d => d.identity = i.identity) i.load := by
  have hbuild := i.ensures_identity_build
  unfold load
  exact hbuild.map fun outcome houtcome => houtcome

end Instantiation

/-- References made of a declaration are loaded under the identity they are known by. -/
theorem TypeRef.Extracted.ensures_identity_fetch {t : SourceType} (h : t.Extracted) :
    Ensures (fun d => d.identity = t.identity) t.fetch := by
  cases h with
  | ready metadata references => exact .pure rfl
  | deferred arguments => exact Instantiation.ensures_identity_load _

/-! ## References that arise -/

/-- A reference of the sources: what a type written in a file becomes, where names may be bound to such references,
and what is found in a descriptor that a resolver answers with, in one that is loaded, or among the arguments of
another such reference. Files and resolvers may be different ones each time. -/
inductive Arises : SourceType → Prop where
  | written (files : Files) (r : Resolver) (scope : FileScope) {bindings : Bindings}
      (hbindings : ∀ entry ∈ bindings, Arises entry.2) (type : Source.TypeExpr) :
      Arises (Resolver.answer files (scope.walk bindings type) r).1
  | answered (files : Files) (r : Resolver) (call : Resolver.Call) {d : Descriptor SourceType}
      (hd : (Resolver.answer files call.search r).1 = .ok d) {t : SourceType} (ht : t ∈ d.shape.references) :
      Arises t
  | loaded (files : Files) (r : Resolver) {t u : SourceType} (h : Arises t)
      (hu : u ∈ (t.load (r.environment files)).shape.references) : Arises u
  | argument {identity : String} {i : Instantiation} (h : Arises (.deferred identity i)) {u : SourceType}
      (hu : u ∈ i.arguments) : Arises u

/-- What a call searches for is of the sources. -/
theorem Resolver.Call.ensures_search (call : Resolver.Call) :
    Ensures FileScope.OutcomeExtracted call.search := by
  cases call with
  | declared file name => exact ensures_resolveDeclared file name
  | expression file text => exact ensures_resolveExpression file text

/-- All that arises is made of a declaration, or is there already. -/
theorem Arises.extracted {t : SourceType} (h : Arises t) : t.Extracted := by
  -- no step uses what the files say or what the resolver remembers, so both may change in between
  induction h with
  | written files r scope _ type ih => exact (FileScope.ensures_walk ih type).answer files r
  | answered files r call hd ht => exact (call.ensures_search.answer files r _ hd).references _ ht
  | loaded files r _ hu ih => exact (Resolver.extracted_load ih).references _ hu
  | argument _ hu ih =>
      -- an extracted reference has the identity of its declaration with the arguments it carries
      cases ih with
      | deferred arguments => exact arguments _ hu

/-! ## References to live types -/

/-- A declared type refers to live types by references made of them. -/
theorem LiveDeclaration.exists_toRef_of_mem_references {name : String} {declaration : LiveDeclaration}
    {u : TypeRef LiveType} (hu : u ∈ (declaration.describe name).shape.references) :
    ∃ v : LiveType, u = v.toRef := by
  cases declaration with
  | record tags fields =>
      obtain ⟨_, hfield, rfl⟩ := List.mem_map.1 hu
      obtain ⟨field, -, rfl⟩ := List.mem_map.1 hfield
      exact ⟨field.type, rfl⟩
  | enumeration variants =>
      obtain ⟨_, hvariant, hpayload⟩ := List.mem_filterMap.1 hu
      obtain ⟨⟨variant, payload⟩, -, rfl⟩ := List.mem_map.1 hvariant
      obtain ⟨v, -, rfl⟩ := Option.map_eq_some_iff.1 hpayload
      exact ⟨v, rfl⟩
  | newtype target => exact ⟨target, List.mem_singleton.1 hu⟩
  | unsupported reason => cases hu

/-- All references in the description of a live type are made of live types. -/
theorem LiveType.exists_toRef_of_mem_references (declarations : String → LiveDeclaration) (t : LiveType)
    {u : TypeRef LiveType} (hu : u ∈ (t.descriptor declarations).shape.references) :
    ∃ v : LiveType, u = v.toRef := by
  -- Whatever a live type mentions is itself the reference of a live type.
  cases t with
  | scalar s => cases hu
  | json => cases hu
  | jsonMap =>
      rcases List.mem_cons.1 hu with rfl | hu
      · exact ⟨_, rfl⟩
      · exact ⟨_, List.mem_singleton.1 hu⟩
  | map container key value =>
      rcases List.mem_cons.1 hu with rfl | hu
      · exact ⟨key, rfl⟩
      · exact ⟨value, List.mem_singleton.1 hu⟩
  | list _ target | pointer _ target | option target => exact ⟨target, List.mem_singleton.1 hu⟩
  | declared name => exact LiveDeclaration.exists_toRef_of_mem_references hu

/-! ## Faithful references -/

/-- **Deferred references are faithful.** What is loaded behind a reference of the sources has the identity of the
reference, whatever the files are by then and whatever the resolver remembers; and so has what is loaded behind a
reference to a live type, however types describe themselves, and these are the only references of live types. -/
theorem identity_load :
    (∀ t : SourceType, Arises t → ∀ (files : Files) (r : Resolver),
      (t.load (r.environment files)).identity = t.identity) ∧
    (∀ (declarations : String → LiveDeclaration) (t : LiveType),
      (t.toRef.load (LiveType.environment declarations)).identity = t.toRef.identity ∧
        ∀ u ∈ (t.toRef.load (LiveType.environment declarations)).shape.references,
          ∃ v : LiveType, u = v.toRef) := by
  constructor
  · intro t ht files r
    rw [Resolver.load_environment]
    exact ht.extracted.ensures_identity_fetch.answer files r
  · intro declarations t
    exact ⟨rfl, fun u hu => t.exists_toRef_of_mem_references declarations hu⟩

/-! ### A page whose declaration changes -/

namespace Paging

/-- A page of users, as the library has it. -/
def userPage : SourceType :=
  (Resolver.answer files (lib.walk [] (applied "Page" (word "User"))) (.ofRoot ⟨""⟩)).1

/-- The library lost, cut off, with a function in the place of the page, and with an enumeration. -/
def later : List Files :=
  [.ofSources [], .ofSources [("lib.rs", "struct Page<T")], .ofSources [("lib.rs", "fn Page() {}")],
    .ofSources [("lib.rs", "enum Page<T> { One(T), Many(Vec<Self>) }")]]

end Paging

open Paging

/-- A page of users keeps its identity when the library is changed before it is loaded, though only the last of the
changes leaves a type to show. -/
theorem identity_load_userPage :
    userPage.identity = "crate::Page<crate::User>" ∧
      later.map (fun files => (userPage.load ((Resolver.ofRoot ⟨""⟩).environment files)).isResolvable) =
        [false, false, false, true] ∧
      ∀ files ∈ later, (userPage.load ((Resolver.ofRoot ⟨""⟩).environment files)).identity =
        "crate::Page<crate::User>" := by
  have hidentity : userPage.identity = "crate::Page<crate::User>" := by decide +kernel
  have harises : Arises userPage :=
    .written Paging.files (.ofRoot ⟨""⟩) lib (List.forall_mem_nil _) (applied "Page" (word "User"))
  refine ⟨hidentity, by decide +kernel, ?_⟩
  intro files _
  rw [identity_load.1 userPage harises files (.ofRoot ⟨""⟩), hidentity]

end PayloadSchema
