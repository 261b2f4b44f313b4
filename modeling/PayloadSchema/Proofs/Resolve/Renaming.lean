import PayloadSchema.Proofs.Descriptor.Relation
import PayloadSchema.Proofs.Resolve.Meaning
import PayloadSchema.Proofs.Source.Renaming

/-!
# Walking over renamed types

If the first names of paths are replaced and the new names mean in one file what the old ones mean in another,
a type and the renamed one become the same reference (`TypeRef.Renamed`), up to the texts by which types
without a schema are known. If none of these texts changes (`exact`), the references have one identity.

* `FileScope.walk_rename` — the references for a type and the renamed one;
* `FileScope.buildItem_rename` — the descriptors for an item and the renamed one.
-/

namespace PayloadSchema

open Source (Segment TypeExpr Item renameHead renameSegments renameArguments renameAll)

/-! ## References -/

/-- Reasons that both say that a type is unresolved, or both do not. -/
def SameSense (reason reason' : String) : Prop :=
  reason.startsWith unresolvedMark = reason'.startsWith unresolvedMark

/-- References that differ in the texts of types without a schema at most, and in these neither if they are to
be exact. All declarations that they lead to are in a set. -/
inductive TypeRef.Renamed (exact : Prop) (D : Set Declaration) : SourceType → SourceType → Prop where
  | scalar (name : String) (s : Scalar) : Renamed exact D (scalarType name s) (scalarType name s)
  | dynamic (identity : String) : Renamed exact D (.ready (.dynamic identity)) (.ready (.dynamic identity))
  | unsupported {display display' reason reason' : String} (hid : exact → display = display')
      (h : SameSense reason reason') :
      Renamed exact D (unsupportedType display reason) (unsupportedType display' reason')
  | list {t t' : SourceType} (hid : exact → t.identity = t'.identity) (h : Renamed exact D t t') :
      Renamed exact D (.ready (.list t)) (.ready (.list t'))
  | map {key key' value value' : SourceType} (hkeyid : exact → key.identity = key'.identity)
      (hid : exact → value.identity = value'.identity) (hkey : Renamed exact D key key')
      (h : Renamed exact D value value') : Renamed exact D (.ready (.map key value)) (.ready (.map key' value'))
  | pointer {t t' : SourceType} (hid : exact → t.identity = t'.identity) (h : Renamed exact D t t') :
      Renamed exact D (.ready (.pointer t)) (.ready (.pointer t'))
  | optional {t t' : SourceType} (hid : exact → t.identity = t'.identity) (h : Renamed exact D t t') :
      Renamed exact D (.ready (.optional t)) (.ready (.optional t'))
  | payload {identity identity' : String} (hid : exact → identity = identity')
      {fields fields' : List (Field SourceType)} (h : List.Forall₂ (Field.Rel (Renamed exact D)) fields fields') :
      Renamed exact D (.ready (.record identity fields none)) (.ready (.record identity' fields' none))
  | declared {d : Declaration} (hd : d ∈ D) {arguments arguments' : List SourceType}
      (hid : exact → (Instantiation.mk d arguments).identity = (Instantiation.mk d arguments').identity)
      (h : List.Forall₂ (Renamed exact D) arguments arguments') :
      Renamed exact D (Instantiation.mk d arguments).toType (Instantiation.mk d arguments').toType

variable {exact : Prop} {D : Set Declaration}

/-- Where even the texts are kept, renamed references have one identity. -/
theorem TypeRef.Renamed.identity_eq {t t' : SourceType} (h : t.Renamed exact D t') (hexact : exact) :
    t.identity = t'.identity := by
  cases h with
  | unsupported hid _ => exact hid hexact
  | list hid _ => exact congrArg (fun id => "Vec<" ++ id ++ ">") (hid hexact)
  | map hkeyid hid _ _ =>
      exact congrArg₂ (fun key id => "Map<" ++ key ++ ", " ++ id ++ ">") (hkeyid hexact) (hid hexact)
  | pointer hid _ => exact congrArg (fun id => "Box<" ++ id ++ ">") (hid hexact)
  | optional hid _ => exact congrArg (fun id => "Option<" ++ id ++ ">") (hid hexact)
  | payload hid _ => exact hid hexact
  | declared _ hid _ => exact hid hexact
  | _ => rfl

/-- Of renamed references, both or none are optional. -/
theorem TypeRef.Renamed.isOptional_eq {t t' : SourceType} (h : t.Renamed exact D t') :
    t.isOptional = t'.isOptional := by
  cases h <;> rfl

/-- A declaration with renamed arguments is a renamed reference. -/
theorem TypeRef.Renamed.declared_of_forall₂ {d : Declaration} (hd : d ∈ D)
    {arguments arguments' : List SourceType} (h : List.Forall₂ (Renamed exact D) arguments arguments') :
    (Instantiation.mk d arguments).toType.Renamed exact D (Instantiation.mk d arguments').toType := by
  have hid (hexact : exact) :
      (Instantiation.mk d arguments).identity = (Instantiation.mk d arguments').identity := by
    have hsame : List.Forall₂ (fun t t' : SourceType => t.identity = t'.identity) arguments arguments' :=
      h.imp fun _ _ ht => ht.identity_eq hexact
    have hidentities : arguments.map TypeRef.identity = arguments'.map TypeRef.identity :=
      map_eq_map_iff_forall₂.2 hsame
    unfold Instantiation.identity Instantiation.arguments
    cases h with
    | nil => rfl
    | cons _ _ =>
        dsimp only
        rw [hidentities]
        rfl
  exact .declared hd hid h

/-- Bindings of the same names to references that are renamed. -/
abbrev Bindings.Renamed (exact : Prop) (D : Set Declaration) (bindings bindings' : Bindings) : Prop :=
  List.Forall₂ (fun entry entry' => entry.1 = entry'.1 ∧ entry.2.Renamed exact D entry'.2) bindings bindings'

/-- An argument at a place is renamed; where there is none both are left open. -/
theorem typeAt_renamed {types types' : List SourceType}
    (h : List.Forall₂ (TypeRef.Renamed exact D) types types') (index : Nat) :
    (typeAt types index).Renamed exact D (typeAt types' index) := by
  unfold typeAt
  induction h generalizing index with
  | nil => exact .dynamic "_"
  | cons ht _ ih =>
      cases index with
      | zero => exact ht
      | succ index => exact ih index

theorem startsWith_unresolvedMark (text : String) : (unresolvedMark ++ text).startsWith unresolvedMark = true := by
  rw [String.startsWith_string_iff, String.toList_append]
  exact List.prefix_append _ _

/-- What names mean is put over arguments in the same way, and what means nothing is known by its text. -/
theorem Meaning.typeOver_renamed {meaning : Meaning} (hD : ∀ d, meaning = .declared d → d ∈ D)
    {display display' : String} (hdisplay : exact → meaning = .nothing → display = display')
    {types types' : List SourceType} (h : List.Forall₂ (TypeRef.Renamed exact D) types types') :
    (meaning.typeOver display types).Renamed exact D (meaning.typeOver display' types') := by
  have hat := typeAt_renamed h
  cases meaning with
  | known name known =>
      cases known with
      | optional => exact .optional (hat 0).identity_eq (hat 0)
      | pointer => exact .pointer (hat 0).identity_eq (hat 0)
      | list => exact .list (hat 0).identity_eq (hat 0)
      | map => exact .map (hat 0).identity_eq (hat 1).identity_eq (hat 0) (hat 1)
      | scalar s => exact .scalar name s
      | json => exact .dynamic _
      | jsonMap => exact .map (fun _ => rfl) (fun _ => rfl) (.scalar _ _) (.dynamic _)
  | declared d => exact .declared_of_forall₂ (hD d rfl) h
  -- A type without meaning keeps its text in the reason, so exactness asks for equal texts here only.
  | nothing =>
      have htext (hexact : exact) : display = display' := hdisplay hexact rfl
      refine .unsupported htext ?_
      unfold SameSense
      simp only [String.append_assoc, startsWith_unresolvedMark]

/-! ## Walking -/

namespace FileScope

section

variable (scope : FileScope) (v : View)

mutual
/-- The parts of a type that are known by their text. -/
def texts : TypeExpr → List TypeExpr
  | .path true path => [.path true path]
  | .path false ⟨leading, segments⟩ =>
    (if scope.meaning v (segments.map (·.name)) = .nothing then [.path false ⟨leading, segments⟩] else [])
      ++ textsLast segments
  | .reference target => texts target
  | .pointer target => texts target
  | .slice element => texts element
  | .array element => texts element
  | .parenthesized inner => texts inner
  | .tuple elements => [.tuple elements]
  | .function inputs => [.function inputs]
  | .traitObject principal => [.traitObject principal]
  | .implTrait => []
  | .never => []
  | .inferred => []
  | .macroCall => []
  | .other => []
/-- The same for the arguments of the last segment of a path. -/
def textsLast : List (Segment TypeExpr) → List TypeExpr
  | [] => []
  | [⟨_, _, types⟩] => textsAll types
  | _ :: segment :: segments => textsLast (segment :: segments)
def textsAll : List TypeExpr → List TypeExpr
  | [] => []
  | type :: types => texts type ++ textsAll types
end

end

variable {scope scope' : FileScope} {v v' : View} {f : String → String} {bindings bindings' : Bindings}

variable (scope scope' v v' f D) in
/-- Each of some paths means the same in one file and with its first name replaced in another one, and the
declarations among what they mean are in a set. -/
def KeepsMeaning (paths : List (List String)) : Prop :=
  ∀ names ∈ paths, scope'.meaning v' (renameHead f names) = scope.meaning v names ∧
    ∀ d, scope.meaning v names = .declared d → d ∈ D

variable (f) in
/-- None of some texts changes. -/
def KeepsTexts (types : List TypeExpr) : Prop := ∀ type ∈ types, (type.rename f).render = type.render

/-- Names that are bound are not renamed, nor is any name renamed to one of them. -/
def KeepsBindings (f : String → String) (bindings : Bindings) : Prop :=
  ∀ name, f name ≠ name → bindings.lookup name = none ∧ bindings.lookup (f name) = none

/-- The names of the segments of a path but for the arguments of the last one do not count for its
arguments. -/
theorem walkLast_renameSegments (scope : FileScope) (bindings : Bindings) (f : String → String)
    (segments : List (Segment TypeExpr)) :
    scope.walkLast bindings (renameSegments f segments) =
      scope.walkLast bindings (renameArguments f segments) := by
  rcases segments with _ | ⟨⟨name, style, types⟩, _ | ⟨⟨name', style', types'⟩, segments⟩⟩
  · rw [renameSegments, renameArguments]
  · simp only [renameSegments, renameArguments, walkLast]
  · simp only [renameSegments, renameArguments, walkLast]

/-- A name that is bound is bound under the same name, since no bound name is changed. -/
theorem bound?_rename (hbindings : bindings.Renamed exact D bindings') (hkeeps : KeepsBindings f bindings)
    (names : List String) {α : Type} {arguments arguments' : List α}
    (hempty : arguments.isEmpty = arguments'.isEmpty) :
    SameOption (TypeRef.Renamed exact D) (bound? bindings names arguments)
      (bound? bindings' (renameHead f names) arguments') := by
  rcases names with _ | ⟨name, _ | ⟨second, rest⟩⟩
  · simpa [bound?, renameHead] using SameOption.none
  · unfold bound? renameHead
    rw [hempty]
    simp only [List.length_singleton, List.getLastD_cons, List.getLastD_nil, true_and]
    split
    · -- A name that changes is bound under neither spelling.
      by_cases hsame : f name = name
      · rw [hsame]
        exact sameOption_lookup hbindings name
      · have hnone := sameOption_lookup hbindings (f name)
        rw [(hkeeps name hsame).2] at hnone
        rw [(hkeeps name hsame).1]
        exact hnone
    · exact .none
  · simpa [bound?, renameHead] using SameOption.none

-- One case for each form of a type: a path becomes what it means, everything else what its parts become.
mutual
/-- A written type becomes a renamed reference in the other scope if its paths keep their meaning. -/
theorem walk_rename (hbindings : bindings.Renamed exact D bindings') (hkeeps : KeepsBindings f bindings) :
    ∀ type : TypeExpr, KeepsMeaning D scope scope' v v' f type.paths →
      (exact → KeepsTexts f (scope.texts v type)) →
      ((scope.walk bindings type).under v).Renamed exact D ((scope'.walk bindings' (type.rename f)).under v')
  | .path true ⟨leading, segments⟩, _, htexts => by
      rw [texts] at htexts
      rw [TypeExpr.rename, walk, walk]
      refine .unsupported ?_ rfl
      intro hexact
      have htext := htexts hexact _ List.mem_cons_self
      exact htext.symm
  | .path false ⟨leading, segments⟩, hmeaning, htexts => by
      rw [TypeExpr.paths] at hmeaning
      rw [texts] at htexts
      obtain ⟨hnames, hD⟩ := hmeaning _ List.mem_cons_self
      -- Arguments first, then the head: its meaning is kept, and with it the type over the arguments.
      have hmeanings : KeepsMeaning D scope scope' v v' f (Source.pathsLast segments) :=
        fun names hmem => hmeaning names (List.mem_cons_of_mem _ hmem)
      have htextsLast (hexact : exact) : KeepsTexts f (scope.textsLast v segments) :=
        fun type hmem => htexts hexact type (List.mem_append_right _ hmem)
      have harguments := walkLast_rename hbindings hkeeps segments hmeanings htextsLast
      have hempty : (scope.walkLast bindings segments).isEmpty =
          (scope'.walkLast bindings' (renameArguments f segments)).isEmpty := by
        rw [Bool.eq_iff_iff, List.isEmpty_iff_length_eq_zero, List.isEmpty_iff_length_eq_zero,
          harguments.length_eq]
      have hbound := bound?_rename hbindings hkeeps (segments.map (·.name)) hempty
      rw [TypeExpr.rename, walk, walk, Source.map_name_renameSegments, walkLast_renameSegments, named_under,
        named_under, hnames]
      generalize bound? bindings (segments.map (·.name)) (scope.walkLast bindings segments) = bound,
        bound? bindings' _ _ = bound' at hbound
      cases hbound with
      | some ht => exact ht
      | none =>
          -- A text stays in the result only where the name means nothing.
          refine Meaning.typeOver_renamed hD ?_ ?_
          · intro hexact hnothing
            have hhead := (List.forall_mem_append.1 (htexts hexact)).1
            rw [if_pos hnothing] at hhead
            have htext := hhead _ (List.mem_singleton_self _)
            rw [TypeExpr.rename] at htext
            exact htext.symm
          · rw [List.forall₂_map_left_iff, List.forall₂_map_right_iff]
            exact harguments
  | .reference target, hmeaning, htexts => by
      rw [TypeExpr.paths] at hmeaning
      rw [texts] at htexts
      have ht := walk_rename hbindings hkeeps target hmeaning htexts
      rw [TypeExpr.rename, walk, walk]
      simp only [Asking.under_bind, Asking.under_pure]
      exact .pointer ht.identity_eq ht
  | .pointer target, hmeaning, htexts => by
      rw [TypeExpr.paths] at hmeaning
      rw [texts] at htexts
      have ht := walk_rename hbindings hkeeps target hmeaning htexts
      rw [TypeExpr.rename, walk, walk]
      simp only [Asking.under_bind, Asking.under_pure]
      exact .pointer ht.identity_eq ht
  | .slice element, hmeaning, htexts => by
      rw [TypeExpr.paths] at hmeaning
      rw [texts] at htexts
      have ht := walk_rename hbindings hkeeps element hmeaning htexts
      rw [TypeExpr.rename, walk, walk]
      simp only [Asking.under_bind, Asking.under_pure]
      exact .list ht.identity_eq ht
  | .array element, hmeaning, htexts => by
      rw [TypeExpr.paths] at hmeaning
      rw [texts] at htexts
      have ht := walk_rename hbindings hkeeps element hmeaning htexts
      rw [TypeExpr.rename, walk, walk]
      simp only [Asking.under_bind, Asking.under_pure]
      exact .list ht.identity_eq ht
  | .parenthesized inner, hmeaning, htexts => by
      rw [TypeExpr.paths] at hmeaning
      rw [texts] at htexts
      rw [TypeExpr.rename, walk, walk]
      exact walk_rename hbindings hkeeps inner hmeaning htexts
  | .tuple [], _, _ => by
      rw [TypeExpr.rename, renameAll, walk]
      exact .unsupported (fun _ => rfl) rfl
  | .tuple (element :: elements), _, htexts => by
      rw [texts] at htexts
      have htext (hexact : exact) := htexts hexact _ List.mem_cons_self
      rw [TypeExpr.rename, renameAll] at htext ⊢
      exact .unsupported (fun hexact => (htext hexact).symm) rfl
  | .function inputs, _, htexts => by
      rw [texts] at htexts
      have htext (hexact : exact) := htexts hexact _ List.mem_cons_self
      rw [TypeExpr.rename] at htext ⊢
      exact .unsupported (fun hexact => (htext hexact).symm) rfl
  | .traitObject none, _, _ => by
      rw [TypeExpr.rename, walk]
      exact .unsupported (fun _ => rfl) rfl
  | .traitObject (some ⟨leading, segments⟩), _, htexts => by
      rw [texts] at htexts
      have htext (hexact : exact) := htexts hexact _ List.mem_cons_self
      rw [TypeExpr.rename] at htext ⊢
      exact .unsupported (fun hexact => (htext hexact).symm) rfl
  | .implTrait, _, _ => .unsupported (fun _ => rfl) rfl
  | .never, _, _ => .unsupported (fun _ => rfl) rfl
  | .inferred, _, _ => .unsupported (fun _ => rfl) rfl
  | .macroCall, _, _ => .unsupported (fun _ => rfl) rfl
  | .other, _, _ => .unsupported (fun _ => rfl) rfl
/-- The arguments of the last segment of a path become renamed references. -/
theorem walkLast_rename (hbindings : bindings.Renamed exact D bindings') (hkeeps : KeepsBindings f bindings) :
    ∀ segments : List (Segment TypeExpr), KeepsMeaning D scope scope' v v' f (Source.pathsLast segments) →
      (exact → KeepsTexts f (scope.textsLast v segments)) →
      List.Forall₂ (fun x y => (Asking.under v x).Renamed exact D (y.under v'))
        (scope.walkLast bindings segments) (scope'.walkLast bindings' (renameArguments f segments))
  | [], _, _ => by
      rw [renameArguments, walkLast, walkLast]
      exact .nil
  | [⟨_, _, types⟩], hmeaning, htexts => by
      rw [Source.pathsLast] at hmeaning
      rw [textsLast] at htexts
      rw [renameArguments, renameArguments, walkLast, walkLast]
      exact walkAll_rename hbindings hkeeps types hmeaning htexts
  | ⟨_, _, _⟩ :: ⟨name, style, types⟩ :: segments, hmeaning, htexts => by
      rw [Source.pathsLast] at hmeaning
      rw [textsLast] at htexts
      have hlast := walkLast_rename hbindings hkeeps (⟨name, style, types⟩ :: segments) hmeaning htexts
      rw [renameArguments] at hlast
      rw [renameArguments, renameArguments, walkLast, walkLast]
      exact hlast
/-- Written types become renamed references, one by one. -/
theorem walkAll_rename (hbindings : bindings.Renamed exact D bindings') (hkeeps : KeepsBindings f bindings) :
    ∀ types : List TypeExpr, KeepsMeaning D scope scope' v v' f (Source.pathsAll types) →
      (exact → KeepsTexts f (scope.textsAll v types)) →
      List.Forall₂ (fun x y => (Asking.under v x).Renamed exact D (y.under v'))
        (scope.walkAll bindings types) (scope'.walkAll bindings' (renameAll f types))
  | [], _, _ => by
      rw [renameAll, walkAll, walkAll]
      exact .nil
  | type :: types, hmeaning, htexts => by
      rw [Source.pathsAll] at hmeaning
      rw [textsAll] at htexts
      rw [renameAll, walkAll, walkAll]
      obtain ⟨hmeaning, hmeanings⟩ := List.forall_mem_append.1 hmeaning
      have hkept (hexact : exact) := List.forall_mem_append.1 (htexts hexact)
      have ht := walk_rename hbindings hkeeps type hmeaning fun hexact => (hkept hexact).1
      have hts := walkAll_rename hbindings hkeeps types hmeanings fun hexact => (hkept hexact).2
      exact .cons ht hts
end

/-! ## Building -/

end FileScope

/-- Descriptors that differ in their references, and in texts of types without a schema, but not in these if
they are to be exact. -/
structure Descriptor.Renamed (exact : Prop) (R : SourceType → SourceType → Prop)
    (d d' : Descriptor SourceType) : Prop where
  identity : exact → d.identity = d'.identity
  description : d.description = d'.description
  shape : d.shape.Rel SameSense R d'.shape

theorem Descriptor.Renamed.withDescription {R : SourceType → SourceType → Prop} {d d' : Descriptor SourceType}
    (h : d.Renamed exact R d') (description : Option String) :
    (d.withDescription description).Renamed exact R (d'.withDescription description) :=
  ⟨h.identity, rfl, h.shape⟩

namespace FileScope

variable {scope scope' : FileScope} {v v' : View} {f : String → String} {bindings bindings' : Bindings}

variable (exact D scope scope' v v' f) in
/-- Each path in a type means the same after renaming, and if references are to be exact, none of the texts in
it changes. -/
structure Keeps (type : TypeExpr) : Prop where
  meaning : KeepsMeaning D scope scope' v v' f type.paths
  texts : exact → KeepsTexts f (scope.texts v type)

section

variable (hbindings : bindings.Renamed exact D bindings') (hkeeps : KeepsBindings f bindings)

include hbindings hkeeps

/-- A field is built with a renamed type and is the same otherwise. -/
theorem buildField_rename {d : Source.FieldDecl} (h : Keeps exact D scope scope' v v' f d.type) :
    ((scope.buildField bindings d).under v).Rel (TypeRef.Renamed exact D)
      ((scope'.buildField bindings' (d.rename f)).under v') := by
  have ht := walk_rename hbindings hkeeps d.type h.meaning h.texts
  unfold buildField Source.FieldDecl.rename
  simp only [Asking.under_bind, Asking.under_pure]
  rw [ht.isOptional_eq]
  exact .intro _ _ _ ht

/-- Fields are built renamed, one by one. -/
theorem buildFields_rename (fields : List Source.FieldDecl)
    (h : ∀ d ∈ fields, Keeps exact D scope scope' v v' f d.type) :
    List.Forall₂ (Field.Rel (TypeRef.Renamed exact D)) ((scope.buildFields bindings fields).under v)
      ((scope'.buildFields bindings' (fields.map (Source.FieldDecl.rename f))).under v') := by
  unfold buildFields
  rw [Asking.under_all, Asking.under_all]
  simp only [List.forall₂_map_left_iff, List.forall₂_map_right_iff, List.forall₂_same]
  intro d hd
  have hfield := h d hd
  exact buildField_rename hbindings hkeeps hfield

variable {identity identity' : String} (hid : exact → identity = identity')

include hid

/-- A structure is built renamed. -/
theorem buildStruct_rename {d : Source.StructDecl}
    (h : ∀ type ∈ (Item.struct d).types, Keeps exact D scope scope' v v' f type) :
    ((scope.buildStruct bindings identity d).under v).Renamed exact (TypeRef.Renamed exact D)
      ((scope'.buildStruct bindings' identity' { d with fields := d.fields.rename f }).under v') := by
  rcases d with ⟨attributes, name, parameters, fields | (_ | ⟨field, _ | ⟨second, fields⟩⟩) | _⟩
  · have hkept (d : Source.FieldDecl) (hd : d ∈ fields) : Keeps exact D scope scope' v v' f d.type :=
      h d.type (List.mem_map_of_mem hd)
    have hfields := buildFields_rename hbindings hkeeps fields hkept
    simp only [buildStruct, Source.Fields.rename, Asking.under_bind, Asking.under_pure]
    refine Descriptor.Renamed.withDescription ?_ _
    exact ⟨hid, rfl, .record _ hfields⟩
  · refine Descriptor.Renamed.withDescription ?_ _
    exact ⟨hid, rfl, .unsupported rfl⟩
  · have hfield : Keeps exact D scope scope' v v' f field.type := h field.type List.mem_cons_self
    have ht := walk_rename hbindings hkeeps field.type hfield.meaning hfield.texts
    simp only [buildStruct, Source.Fields.rename, List.map_cons, List.map_nil, Asking.under_bind,
      Asking.under_pure]
    refine Descriptor.Renamed.withDescription ?_ _
    exact ⟨hid, rfl, .pointer false ht⟩
  · have hlength : (fields.map (Source.FieldDecl.rename f)).length = fields.length := List.length_map ..
    simp only [buildStruct, Source.Fields.rename, List.map_cons, List.length_cons, hlength, Asking.under_bind,
      Asking.under_pure]
    refine Descriptor.Renamed.withDescription ?_ _
    exact ⟨hid, rfl, .unsupported rfl⟩
  · refine Descriptor.Renamed.withDescription ?_ _
    exact ⟨hid, rfl, .unsupported rfl⟩

/-- The payload of a variant is built renamed, if there is one. -/
theorem buildPayload_rename (fields : Source.Fields)
    (h : ∀ d ∈ fields.toList, Keeps exact D scope scope' v v' f d.type) :
    SameOption (TypeRef.Renamed exact D) ((scope.buildPayload bindings identity fields).under v)
      ((scope'.buildPayload bindings' identity' (fields.rename f)).under v') := by
  rcases fields with fields | (_ | ⟨field, _ | ⟨second, fields⟩⟩) | _
  · have hfields := buildFields_rename hbindings hkeeps fields h
    simp only [buildPayload, Source.Fields.rename, Asking.under_bind, Asking.under_pure]
    exact .some (.payload hid hfields)
  · exact .some (.unsupported hid rfl)
  · have hfield := h field List.mem_cons_self
    have ht := walk_rename hbindings hkeeps field.type hfield.meaning hfield.texts
    simp only [buildPayload, Source.Fields.rename, List.map_cons, List.map_nil, Asking.under_map]
    exact .some ht
  · have hlength : (fields.map (Source.FieldDecl.rename f)).length = fields.length := List.length_map ..
    simp only [buildPayload, Source.Fields.rename, List.map_cons, List.length_cons, hlength, Asking.under_pure]
    exact .some (.unsupported hid rfl)
  · exact .none

/-- An enumeration is built renamed. -/
theorem buildEnum_rename {d : Source.EnumDecl}
    (h : ∀ type ∈ (Item.enum d).types, Keeps exact D scope scope' v v' f type) :
    ((scope.buildEnum bindings identity d).under v).Renamed exact (TypeRef.Renamed exact D)
      ((scope'.buildEnum bindings' identity'
        { d with variants := d.variants.map (Source.VariantDecl.rename f) }).under v') := by
  -- variants are left out by their attributes, which stay
  have hkept : (d.variants.map (Source.VariantDecl.rename f)).filter
        (fun variant => !(FieldMetadata.ofAttributes variant.attributes).ignore) =
      (d.variants.filter fun variant => !(FieldMetadata.ofAttributes variant.attributes).ignore).map
        (Source.VariantDecl.rename f) := List.filter_map
  unfold buildEnum
  rw [hkept]
  simp only [Asking.under_bind, Asking.under_pure, Asking.under_all, List.map_map]
  refine Descriptor.Renamed.withDescription ?_ _
  refine ⟨hid, rfl, .enumeration ?_⟩
  simp only [List.forall₂_map_left_iff, List.forall₂_map_right_iff, List.forall₂_same, Function.comp_apply]
  intro variant hvariant
  have hinner (hexact : exact) :
      identity ++ "::" ++ variant.name = identity' ++ "::" ++ variant.name := by
    rw [hid hexact]
  have hmem : variant ∈ d.variants := List.mem_of_mem_filter hvariant
  have hkept (field : Source.FieldDecl) (hfield : field ∈ variant.fields.toList) :
      Keeps exact D scope scope' v v' f field.type :=
    h field.type (List.mem_flatMap.2 ⟨variant, hmem, List.mem_map_of_mem hfield⟩)
  have hpayload := buildPayload_rename hbindings hkeeps hinner variant.fields hkept
  unfold buildVariant
  simp only [Asking.under_bind, Asking.under_pure]
  exact .intro _ hpayload

/-- An alias is built renamed. -/
theorem buildAlias_rename {d : Source.AliasDecl}
    (h : ∀ type ∈ (Item.typeAlias d).types, Keeps exact D scope scope' v v' f type) :
    ((scope.buildAlias bindings identity d).under v).Renamed exact (TypeRef.Renamed exact D)
      ((scope'.buildAlias bindings' identity' { d with type := d.type.rename f }).under v') := by
  have htype : Keeps exact D scope scope' v v' f d.type := h d.type List.mem_cons_self
  have ht := walk_rename hbindings hkeeps d.type htype.meaning htype.texts
  simp only [buildAlias, Asking.under_bind, Asking.under_pure]
  refine Descriptor.Renamed.withDescription ?_ _
  exact ⟨hid, rfl, .pointer false ht⟩

end

end FileScope

/-- Arguments that are renamed give bindings that are renamed. -/
theorem Instantiation.bindings_renamed {d : Declaration} (hd : d ∈ D) {arguments arguments' : List SourceType}
    (h : List.Forall₂ (TypeRef.Renamed exact D) arguments arguments') (parameters : List String) :
    ((mk d arguments).bindings parameters).Renamed exact D ((mk d arguments').bindings parameters) := by
  have hbound (names : List String) (types types' : List SourceType)
      (htypes : List.Forall₂ (TypeRef.Renamed exact D) types types') :
      (bindings.bound names types).Renamed exact D (bindings.bound names types') := by
    induction names generalizing types types' with
    | nil => exact .nil
    | cons name names ih =>
        cases htypes with
        | nil => exact .cons ⟨rfl, .dynamic name⟩ (ih _ _ .nil)
        | cons ht hrest => exact .cons ⟨rfl, ht⟩ (ih _ _ hrest)
  have hself := TypeRef.Renamed.declared_of_forall₂ hd h
  have hparameters := List.rel_reverse (hbound parameters _ _ h)
  exact .cons ⟨rfl, hself⟩ hparameters

/-- A name is bound in a declaration only if it is `Self` or a parameter. -/
theorem Instantiation.lookup_bindings_eq_none (i : Instantiation) {parameters : List String} {name : String}
    (hself : name ≠ "Self") (hname : name ∉ parameters) : (i.bindings parameters).lookup name = none := by
  -- Bindings are `Self` and the parameters, and the name is neither.
  have hkeys (names : List String) (types : List SourceType) :
      (bindings.bound names types).map (·.1) = names := by
    induction names generalizing types with
    | nil => rfl
    | cons name names ih => cases types <;> rw [bindings.bound, List.map_cons, ih]
  rw [bindings, List.lookup_eq_none_iff]
  rintro ⟨key, type⟩ hmem
  rcases List.mem_cons.1 hmem with heq | hmem
  · cases heq
    simpa using hself
  · have hkey : key ∈ (bindings.bound parameters i.arguments).map (·.1) :=
      List.mem_map_of_mem (List.mem_reverse.1 hmem)
    rw [hkeys] at hkey
    rw [bne_iff_ne]
    rintro rfl
    exact hname hkey

/-- **Renamed items.** An item and the renamed one are built into descriptors that differ in texts at most. -/
theorem FileScope.buildItem_rename {scope scope' : FileScope} {v v' : View} {f : String → String}
    {d : Declaration} (hd : d ∈ D) {arguments arguments' : List SourceType}
    (harguments : List.Forall₂ (TypeRef.Renamed exact D) arguments arguments') {item : Item}
    (hfree : ∀ name, f name ≠ name →
      (name ≠ "Self" ∧ name ∉ item.parameters) ∧ f name ≠ "Self" ∧ f name ∉ item.parameters)
    (h : ∀ type ∈ item.types, Keeps exact D scope scope' v v' f type) :
    SameExcept (Descriptor.Renamed exact (TypeRef.Renamed exact D))
      ((scope.buildItem (.mk d arguments) item).under v)
      ((scope'.buildItem (.mk d arguments') (item.rename f)).under v') := by
  have hbindings := Instantiation.bindings_renamed hd harguments
  have hid := (TypeRef.Renamed.declared_of_forall₂ hd harguments).identity_eq
  -- A name that changes is no parameter of the item, before or after.
  have hkeeps (parameters : List String) (hparameters : item.parameters = parameters) :
      KeepsBindings f ((Instantiation.mk d arguments).bindings parameters) := by
    intro name hname
    obtain ⟨hold, hnew⟩ := hfree name hname
    rw [hparameters] at hold hnew
    exact ⟨Instantiation.lookup_bindings_eq_none _ hold.1 hold.2,
      Instantiation.lookup_bindings_eq_none _ hnew.1 hnew.2⟩
  cases item with
  | struct decl =>
      rw [Item.rename, buildItem, buildItem, Asking.under_map, Asking.under_map]
      have hbuilt := buildStruct_rename (hbindings decl.parameters) (hkeeps decl.parameters rfl) hid h
      exact .ok hbuilt
  | enum decl =>
      rw [Item.rename, buildItem, buildItem, Asking.under_map, Asking.under_map]
      have hbuilt := buildEnum_rename (hbindings decl.parameters) (hkeeps decl.parameters rfl) hid h
      exact .ok hbuilt
  | typeAlias decl =>
      rw [Item.rename, buildItem, buildItem, Asking.under_map, Asking.under_map]
      have hbuilt := buildAlias_rename (hbindings decl.parameters) (hkeeps decl.parameters rfl) hid h
      exact .ok hbuilt
  | use tree => exact .error _
  | module name => exact .error _
  | value inner => exact .error _
  | closed => exact .error _

end PayloadSchema
