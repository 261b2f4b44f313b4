import PayloadSchema.Live.Basic
import PayloadSchema.Proofs.Live.Names
import PayloadSchema.Proofs.Resolve.Identity
import PayloadSchema.Proofs.Resolve.Precedence

/-!
# Types that are written and alive

A type of a program may be known twice: as it is written in a source file, and as it describes itself while
the program runs. `FileScope.Spells` says which live type a written type spells: scalars, JSON values and
containers by the names that are known for them, as long as no type of the project stands before the name,
and structures that are declared in the project and describe themselves field by field with the same
attributes (`Twins`).

A written type becomes a reference that stands for the live type (`Twins.Stands`), and what is behind the
reference is what the live type describes, up to references that stand for the live types there.

* `FileScope.Spells.stands` — what a written type becomes;
* `Twins.Stands.describes` — what is behind it.
-/

namespace PayloadSchema

/-! ## Spelling -/

namespace FileScope

variable (v : View) (scope : FileScope)

/-- Names that mean a well-known type in a file: no declaration, no import and no module of which all names
are imported puts a type of the project before it. -/
def Knows (names : List String) (known : WellKnown) : Prop :=
  scope.owns names = false ∧ WellKnown.ofName? (names.getLastD "") (scope.origin? names) = some known ∧
    (scope.origin? names = none → (scope.lookupInGlobs (names.getLastD "")).under v = none)

instance (names : List String) (known : WellKnown) : Decidable (scope.Knows v names known) :=
  inferInstanceAs (Decidable (_ ∧ _ ∧ _))

def namesOf (before : List (Source.Segment Source.TypeExpr)) (last : Source.Segment Source.TypeExpr) :
    List String :=
  (before ++ [last]).map (·.name)

/-- A type as it is written in a file, and the live type that it spells. Which declaration is which declared
live type is said by `pairs`; inside a declaration `Self` is the live type `own`. Any container of elements
may be spelled by the name of any other one, and the same goes for maps and pointers. -/
inductive Spells (pairs : Declaration → String → Prop) (own : Option String) :
    Source.TypeExpr → LiveType → Prop where
  | scalar {leading : Bool} {before : List (Source.Segment Source.TypeExpr)}
      {last : Source.Segment Source.TypeExpr} {s : LiveScalar}
      (h : scope.Knows v (namesOf before last) (.scalar s.scalar)) :
      Spells pairs own (.path false ⟨leading, before ++ [last]⟩) (.scalar s)
  | json {leading : Bool} {before : List (Source.Segment Source.TypeExpr)}
      {last : Source.Segment Source.TypeExpr} (h : scope.Knows v (namesOf before last) .json) :
      Spells pairs own (.path false ⟨leading, before ++ [last]⟩) .json
  | jsonMap {leading : Bool} {before : List (Source.Segment Source.TypeExpr)}
      {last : Source.Segment Source.TypeExpr} (h : scope.Knows v (namesOf before last) .jsonMap) :
      Spells pairs own (.path false ⟨leading, before ++ [last]⟩) .jsonMap
  | list {leading : Bool} {before : List (Source.Segment Source.TypeExpr)}
      {last : Source.Segment Source.TypeExpr} {element : Source.TypeExpr} {more : List Source.TypeExpr}
      {live : LiveType} (container : LiveList) (h : scope.Knows v (namesOf before last) .list)
      (htypes : last.types = element :: more) (helement : Spells pairs own element live) :
      Spells pairs own (.path false ⟨leading, before ++ [last]⟩) (.list container live)
  | slice {element : Source.TypeExpr} {live : LiveType} (container : LiveList)
      (h : Spells pairs own element live) : Spells pairs own (.slice element) (.list container live)
  | array {element : Source.TypeExpr} {live : LiveType} (container : LiveList)
      (h : Spells pairs own element live) : Spells pairs own (.array element) (.list container live)
  | map {leading : Bool} {before : List (Source.Segment Source.TypeExpr)}
      {last : Source.Segment Source.TypeExpr} {key value : Source.TypeExpr} {more : List Source.TypeExpr}
      {s : LiveScalar} {live : LiveType} (container : LiveMap)
      (h : scope.Knows v (namesOf before last) .map) (htypes : last.types = key :: value :: more)
      (htext : s.scalar = .text ∨ s.scalar = .character) (hkey : Spells pairs own key (.scalar s))
      (hvalue : Spells pairs own value live) :
      Spells pairs own (.path false ⟨leading, before ++ [last]⟩) (.map container (.scalar s) live)
  | pointer {leading : Bool} {before : List (Source.Segment Source.TypeExpr)}
      {last : Source.Segment Source.TypeExpr} {target : Source.TypeExpr} {more : List Source.TypeExpr}
      {live : LiveType} (p : LivePointer) (h : scope.Knows v (namesOf before last) .pointer)
      (htypes : last.types = target :: more) (htarget : Spells pairs own target live) :
      Spells pairs own (.path false ⟨leading, before ++ [last]⟩) (.pointer p live)
  | option {leading : Bool} {before : List (Source.Segment Source.TypeExpr)}
      {last : Source.Segment Source.TypeExpr} {target : Source.TypeExpr} {more : List Source.TypeExpr}
      {live : LiveType} (h : scope.Knows v (namesOf before last) .optional)
      (htypes : last.types = target :: more) (htarget : Spells pairs own target live) :
      Spells pairs own (.path false ⟨leading, before ++ [last]⟩) (.option live)
  | parenthesized {inner : Source.TypeExpr} {live : LiveType} (h : Spells pairs own inner live) :
      Spells pairs own (.parenthesized inner) live
  | declared {leading : Bool} {before : List (Source.Segment Source.TypeExpr)}
      {last : Source.Segment Source.TypeExpr} {d : Declaration} {name : String}
      (htypes : last.types = []) (hself : namesOf before last ≠ ["Self"])
      (hfree : ¬ scope.Eclipses (namesOf before last))
      (hlookup : (scope.lookup (namesOf before last)).under v = some d) (h : pairs d name) :
      Spells pairs own (.path false ⟨leading, before ++ [last]⟩) (.declared name)
  | self {leading : Bool} {style : Source.ArgumentStyle} {name : String} (h : own = some name) :
      Spells pairs own (.path false ⟨leading, [⟨"Self", style, []⟩]⟩) (.declared name)

end FileScope

/-! ## Declarations that describe themselves -/

/-- A field as it is written in a declaration, and as the live type with a name describes it. -/
structure Source.FieldDecl.IsTwin (v : View) (pairs : Declaration → String → Prop) (scope : FileScope)
    (own : String) (f : Source.FieldDecl) (live : LiveField) : Prop where
  name : live.name = plainName f.name
  tags : live.tags.filterMap Meta.ofText? = f.attributes
  type : scope.Spells v pairs (some own) f.type live.type

/-- A declaration of a structure with named fields and no parameters, and the live type of a name that
describes itself by the same fields with the same attributes. -/
inductive Declaration.IsTwin (files : Files) (root : FilePath) (declarations : String → LiveDeclaration)
    (pairs : Declaration → String → Prop) : Declaration → String → Prop where
  | intro {d : Declaration} {name : String} {source : Source.SourceFile} {struct : Source.StructDecl}
      {fields : List Source.FieldDecl} {tags : List String} {liveFields : List LiveField}
      (hsource : Source.ofFile files d.file = .ok source) (hmodule : d.modulePath = ModulePath.ofFile root d.file)
      (hdeclares : (FileScope.ofSource root d.file source).declares d.name = true)
      (hitem : source.find? d.name = some (.struct struct)) (hparameters : struct.parameters = [])
      (hfields : struct.fields = .named fields) (hlive : declarations name = .record tags liveFields)
      (htags : tags.filterMap Source.Meta.ofText? = struct.attributes)
      (h : List.Forall₂ (Source.FieldDecl.IsTwin (files.view root) pairs
        (FileScope.ofSource root d.file source) name) fields liveFields) :
      IsTwin files root declarations pairs d name

/-- The declarations of a project that are alive under full names. -/
structure Twins (files : Files) (root : FilePath) (declarations : String → LiveDeclaration) where
  /-- Which declaration is which declared live type. -/
  pairs : Declaration → String → Prop
  twin : ∀ d name, pairs d name → d.IsTwin files root declarations pairs name
  name : ∀ d name, pairs d name → IsDeclaredName name

namespace Twins

variable {files : Files} {root : FilePath} {declarations : String → LiveDeclaration}

/-- The declarations that are alive. -/
def declared (T : Twins files root declarations) : Set Declaration := {d | ∃ name, T.pairs d name}

/-- The declarations that are alive, under any spelling of the paths of their files. -/
def spellings (T : Twins files root declarations) : Set Declaration :=
  {d' | ∃ d name, T.pairs d name ∧ d.Alike files root d'}

/-- The spellings of declarations are unambiguous if the declarations are. -/
theorem unambiguous_spellings {T : Twins files root declarations} (h : Unambiguous T.declared) :
    Unambiguous T.spellings where
  -- A spelling differs from its declaration in the path of the file only.
  plain := by
    rintro d' ⟨d, name, hd, halike⟩
    rw [← halike.modulePath_eq, ← halike.name]
    exact h.plain d ⟨name, hd⟩
  json := by
    rintro d' ⟨d, name, hd, halike⟩
    rw [← halike.modulePath_eq, ← halike.name]
    exact h.json d ⟨name, hd⟩
  place := by
    rintro d' ⟨d, name, hd, halike⟩ e' ⟨e, name', he, halike'⟩ hmodule hname
    rw [← halike.modulePath_eq, ← halike'.modulePath_eq] at hmodule
    rw [← halike.name, ← halike'.name] at hname
    rw [← halike.file.parts, ← halike'.file.parts]
    exact h.place d ⟨name, hd⟩ e ⟨name', he⟩ hmodule hname

/-- A text that spells a live type in a file. -/
def Spelled (T : Twins files root declarations) (file : FilePath) (text : String) (live : LiveType) : Prop :=
  ∃ type scope, Source.TypeExpr.ofText? text = some type ∧ (files.view root).scope file = .ok scope ∧
    scope.Spells (files.view root) T.pairs none type live

/-- A reference that stands for a live type. -/
inductive Stands (T : Twins files root declarations) : SourceType → LiveType → Prop where
  | scalar {name : String} {s : LiveScalar} (h : WellKnown.scalarOf? name = some s.scalar) :
      Stands T (scalarType name s.scalar) (.scalar s)
  | json : Stands T jsonType .json
  | jsonMap : Stands T (.ready (.map (scalarType "String" .text) jsonType)) .jsonMap
  | list {t : SourceType} {live : LiveType} (container : LiveList) (h : Stands T t live) :
      Stands T (.ready (.list t)) (.list container live)
  | map {key value : SourceType} {s : LiveScalar} {live : LiveType} (container : LiveMap)
      (htext : s.scalar = .text ∨ s.scalar = .character) (hkey : Stands T key (.scalar s))
      (h : Stands T value live) : Stands T (.ready (.map key value)) (.map container (.scalar s) live)
  | pointer {t : SourceType} {live : LiveType} (p : LivePointer) (h : Stands T t live) :
      Stands T (.ready (.pointer t)) (.pointer p live)
  | option {t : SourceType} {live : LiveType} (h : Stands T t live) :
      Stands T (.ready (.optional t)) (.option live)
  | declared {i : Instantiation} {d : Declaration} {name : String} (harguments : i.arguments = [])
      (halike : d.Alike files root i.declaration) (h : T.pairs d name) : Stands T i.toType (.declared name)

namespace Stands

variable {T : Twins files root declarations} {t : SourceType} {live : LiveType}

/-- Of a reference and what it stands for, both or none are optional. -/
theorem isOptional_eq (h : T.Stands t live) : t.isOptional = live.isOption := by
  cases h <;> rfl

/-- A live type that is stood for has proper names. -/
theorem hasProperNames (h : T.Stands t live) : live.HasProperNames := by
  induction h with
  | scalar _ => trivial
  | json => trivial
  | jsonMap => trivial
  | list _ _ ih => exact ih
  | map _ _ _ _ _ ih => exact ⟨trivial, ih⟩
  | pointer _ _ ih => exact ih
  | option _ ih => exact ih
  | declared _ _ h => exact T.name _ _ h

/-- A reference that stands for a live type is settled. -/
theorem isSettled (h : T.Stands t live) : t.IsSettled T.spellings := by
  induction h with
  | scalar _ => exact .scalar _ _
  | json => exact .json
  | jsonMap => exact .map (.scalar _ _) .json
  | list _ _ ih => exact .wrapped .list ih
  | map _ _ _ _ ihkey ih => exact .map ihkey ih
  | pointer _ _ ih => exact .wrapped .pointer ih
  | option _ ih => exact .wrapped .optional ih
  | @declared i d name harguments halike h =>
      refine .declared ⟨d, name, h, halike⟩ ?_
      intro t ht
      rw [harguments] at ht
      cases ht

/-- A reference that stands for a live type is alike to itself: all declarations in it are there. -/
theorem alike (h : T.Stands t live) : t.Alike files root t := by
  induction h with
  | scalar h => exact .scalar h
  | json => exact .dynamic _
  | jsonMap => exact .map rfl rfl (.scalar rfl) (.dynamic _)
  | list _ _ ih => exact .list rfl ih
  | map _ _ _ _ ihkey ih => exact .map rfl rfl ihkey ih
  | pointer _ _ ih => exact .pointer rfl ih
  | option _ ih => exact .optional rfl ih
  -- Declarations have no arguments here, so likeness is that of the declaration.
  | declared harguments halike _ =>
      have hself : Declaration.Alike files root _ _ :=
        ⟨.refl halike.file.right, rfl, halike.right, halike.right⟩
      refine Instantiation.Alike.toType ⟨hself, ?_⟩
      rw [harguments]
      exact .nil

end Stands

/-- Nothing but `Self` is bound, and that to a reference that stands for the live type it means. -/
structure Binds (T : Twins files root declarations) (bindings : Bindings) (own : Option String) : Prop where
  other : ∀ name, name ≠ "Self" → bindings.lookup name = none
  self : ∀ name, own = some name → ∃ t, bindings.lookup "Self" = some t ∧ T.Stands t (.declared name)

end Twins

/-! ## What a written type becomes -/

namespace FileScope

variable {files : Files} {root : FilePath} {declarations : String → LiveDeclaration}
  {T : Twins files root declarations} {scope scope' : FileScope} {bindings : Bindings} {own : Option String}
  {names : List String} {display : String} {t : SourceType}

/-- The arguments of a path are those of its last segment. -/
theorem walkLast_append (scope : FileScope) (bindings : Bindings)
    (before : List (Source.Segment Source.TypeExpr)) (last : Source.Segment Source.TypeExpr) :
    scope.walkLast bindings (before ++ [last]) = scope.walkAll bindings last.types := by
  induction before with
  | nil =>
      rw [List.nil_append, walkLast]
  | cons segment before ih =>
      cases before with
      | nil =>
          rw [List.cons_append, List.nil_append, walkLast]
          exact ih
      | cons next before =>
          rw [List.cons_append, List.cons_append, walkLast]
          exact ih

/-- The name of the type itself is not well known. -/
theorem ofName?_self (origin : Option String) : WellKnown.ofName? "Self" origin = none := by
  simp [WellKnown.ofName?, WellKnown.pointerNames, WellKnown.listNames, WellKnown.mapNames, WellKnown.scalarOf?]

/-- Names that are known become the well-known type. -/
theorem yields_named_of_knows {known : WellKnown} (hknows : scope.Knows (files.view root) names known)
    (hscope : scope.Alike files root scope') (hbindings : T.Binds bindings own)
    {arguments : List (Asking SourceType)}
    (ht : Asking.Yields files root (scope'.named bindings names display arguments) t) :
    Asking.Yields files root (known.toType (names.getLastD "") arguments) t := by
  obtain ⟨howns, hknown, hglobs⟩ := hknows
  have hbound : bound? bindings names arguments = none := by
    unfold bound?
    split
    · apply hbindings.other
      intro hself
      rw [hself, ofName?_self] at hknown
      cases hknown
    · rfl
  unfold named at ht
  rw [hbound] at ht
  obtain ⟨answer, hanswer, ht⟩ := Asking.yields_bind.1 ht
  unfold wellKnown? at hanswer
  dsimp only at hanswer
  rw [← hscope.owns_eq, ← hscope.origin?_eq, howns, hknown] at hanswer
  obtain ⟨type, htype, hanswer⟩ := Asking.yields_bind.1 hanswer
  have hfound : answer = some type := by
    split at hanswer
    next hsingle =>
      -- no module of which all names are imported has the name, in whatever spelling it is looked for
      obtain ⟨found, hfound, hanswer⟩ := Asking.yields_bind.1 hanswer
      have hnone := lookupInGlobs_alike hscope (names.getLastD "") _ _ (Asking.yields_under files root _) hfound
      rw [hglobs (Option.isNone_iff_eq_none.1 hsingle.2)] at hnone
      cases hnone
      exact Asking.yields_pure.1 hanswer
    next => exact Asking.yields_pure.1 hanswer
  rw [hfound] at ht
  rw [Asking.yields_pure.1 ht]
  exact htype

/-- Names without arguments that lead to a declaration become a reference to it. -/
theorem yields_named_of_lookup {d : Declaration} (hself : names ≠ ["Self"]) (hfree : ¬ scope.Eclipses names)
    (hlookup : (scope.lookup names).under (files.view root) = some d) (hscope : scope.Alike files root scope')
    (hbindings : T.Binds bindings own)
    (ht : Asking.Yields files root (scope'.named bindings names display []) t) :
    ∃ d', d.Alike files root d' ∧ t = (Instantiation.mk d' []).toType := by
  -- Inside a declaration only `Self` is bound.
  have hbound : bound? bindings names ([] : List (Asking SourceType)) = none := by
    unfold bound?
    split
    next hsingle =>
      obtain ⟨name, rfl⟩ := List.length_eq_one_iff.1 hsingle.1
      have hname : name ≠ "Self" := by
        rintro rfl
        exact hself rfl
      exact hbindings.other name hname
    next => rfl
  unfold named at ht
  rw [hbound] at ht
  obtain ⟨answer, hanswer, ht⟩ := Asking.yields_bind.1 ht
  have harguments : ArgumentsAlike files root [] [] := .nil
  have hknown := wellKnown?_alike hscope names harguments _ _ (Asking.yields_under files root _) hanswer
  rw [wellKnown?_of_not_eclipses (files.view root) [] hlookup hfree] at hknown
  cases hknown
  obtain ⟨found, hfound, ht⟩ := Asking.yields_bind.1 ht
  -- Any memory finds a declaration like the one the view finds.
  have hsame := lookup_alike hscope names _ _ (Asking.yields_under files root _) hfound
  rw [hlookup] at hsame
  cases hsame with
  | @some _ d' halike =>
      obtain ⟨arguments, harguments, ht⟩ := Asking.yields_bind.1 ht
      rw [Asking.yields_pure.1 harguments] at ht
      exact ⟨d', halike, Asking.yields_pure.1 ht⟩

/-- A written type becomes a reference that stands for the live type that it spells. -/
theorem Spells.stands {type : Source.TypeExpr} {live : LiveType}
    (h : scope.Spells (files.view root) T.pairs own type live) (hscope : scope.Alike files root scope')
    (hbindings : T.Binds bindings own) (ht : Asking.Yields files root (scope'.walk bindings type) t) :
    T.Stands t live := by
  -- By induction on how the type spells the live one: each form is walked to its counterpart.
  induction h generalizing t with
  | scalar h =>
      rw [walk] at ht
      have htype := yields_named_of_knows h hscope hbindings ht
      rw [Asking.yields_pure.1 htype]
      exact .scalar (WellKnown.scalarOf?_of_ofName? h.2.1)
  | json h =>
      rw [walk] at ht
      have htype := yields_named_of_knows h hscope hbindings ht
      rw [Asking.yields_pure.1 htype]
      exact .json
  | jsonMap h =>
      rw [walk] at ht
      have htype := yields_named_of_knows h hscope hbindings ht
      rw [Asking.yields_pure.1 htype]
      exact .jsonMap
  | list container h htypes _ ih =>
      rw [walk, walkLast_append, htypes, walkAll] at ht
      have htype := yields_named_of_knows h hscope hbindings ht
      obtain ⟨e, he, htype⟩ := Asking.yields_bind.1 htype
      rw [Asking.yields_pure.1 htype]
      exact .list container (ih he)
  | slice container _ ih =>
      rw [walk] at ht
      obtain ⟨e, he, ht⟩ := Asking.yields_bind.1 ht
      rw [Asking.yields_pure.1 ht]
      exact .list container (ih he)
  | array container _ ih =>
      rw [walk] at ht
      obtain ⟨e, he, ht⟩ := Asking.yields_bind.1 ht
      rw [Asking.yields_pure.1 ht]
      exact .list container (ih he)
  | map container h htypes htext _ _ ihkey ih =>
      rw [walk, walkLast_append, htypes, walkAll, walkAll] at ht
      have htype := yields_named_of_knows h hscope hbindings ht
      obtain ⟨k, hk, htype⟩ := Asking.yields_bind.1 htype
      obtain ⟨e, he, htype⟩ := Asking.yields_bind.1 htype
      rw [Asking.yields_pure.1 htype]
      exact .map container htext (ihkey hk) (ih he)
  | pointer p h htypes _ ih =>
      rw [walk, walkLast_append, htypes, walkAll] at ht
      have htype := yields_named_of_knows h hscope hbindings ht
      obtain ⟨e, he, htype⟩ := Asking.yields_bind.1 htype
      rw [Asking.yields_pure.1 htype]
      exact .pointer p (ih he)
  | option h htypes _ ih =>
      rw [walk, walkLast_append, htypes, walkAll] at ht
      have htype := yields_named_of_knows h hscope hbindings ht
      obtain ⟨e, he, htype⟩ := Asking.yields_bind.1 htype
      rw [Asking.yields_pure.1 htype]
      exact .option (ih he)
  | parenthesized _ ih =>
      rw [walk] at ht
      exact ih ht
  | declared htypes hself hfree hlookup h =>
      rw [walk, walkLast_append, htypes, walkAll] at ht
      obtain ⟨d', halike, rfl⟩ := yields_named_of_lookup hself hfree hlookup hscope hbindings ht
      exact .declared rfl halike h
  | self h =>
      obtain ⟨u, hu, hstands⟩ := hbindings.self _ h
      rw [walk, walkLast, walkAll] at ht
      -- The name `Self` is bound, so it is not looked up at all.
      change Asking.Yields files root (scope'.named bindings ["Self"] _ []) t at ht
      have hbound : bound? bindings ["Self"] ([] : List (Asking SourceType)) = some u := hu
      rw [named, hbound] at ht
      rw [Asking.yields_pure.1 ht]
      exact hstands

end FileScope

/-! ## What is behind a reference -/

namespace Twins

variable {files : Files} {root : FilePath} {declarations : String → LiveDeclaration}
  {T : Twins files root declarations}

/-- A descriptor says what a live type describes, up to references that stand for the live types there. It
is supported, and if it is that of a map, the keys are texts on both sides. -/
structure Describes (T : Twins files root declarations) (d : Descriptor SourceType) (live : LiveType) :
    Prop where
  description : d.description = (live.descriptor declarations).description
  shape : d.shape.Rel Eq (fun t u => ∃ live, u = live.toRef ∧ T.Stands t live)
    (live.descriptor declarations).shape
  supported : ∀ reason, d.shape ≠ .unsupported reason
  key : ∀ env, Compile.hasTextKey env d.shape = true
  liveKey : Compile.hasTextKey (LiveType.environment declarations) (live.descriptor declarations).shape = true

/-- A field of a twin is built as the live field is described. -/
theorem yields_buildField {scope scope' : FileScope} {bindings : Bindings} {name : String}
    {f : Source.FieldDecl} {live : LiveField} {field : Field SourceType}
    (h : f.IsTwin (files.view root) T.pairs scope name live) (hscope : scope.Alike files root scope')
    (hbindings : T.Binds bindings (some name))
    (hfield : Asking.Yields files root (scope'.buildField bindings f) field) :
    field.Rel (fun t u => ∃ live, u = live.toRef ∧ T.Stands t live) live.describe := by
  obtain ⟨type, htype, hfield⟩ := Asking.yields_bind.1 hfield
  have hstands := h.type.stands hscope hbindings htype
  rw [Asking.yields_pure.1 hfield]
  unfold LiveField.describe FieldMetadata.ofTags
  rw [h.name, h.tags, hstands.isOptional_eq]
  exact .intro _ _ _ ⟨live.type, rfl, hstands⟩

/-- The fields of a twin are built as the live fields are described. -/
theorem yields_buildFields {scope scope' : FileScope} {bindings : Bindings} {name : String}
    {decls : List Source.FieldDecl} {liveFields : List LiveField} {fields : List (Field SourceType)}
    (h : List.Forall₂ (Source.FieldDecl.IsTwin (files.view root) T.pairs scope name) decls liveFields)
    (hscope : scope.Alike files root scope') (hbindings : T.Binds bindings (some name))
    (hfields : Asking.Yields files root (scope'.buildFields bindings decls) fields) :
    List.Forall₂ (Field.Rel fun t u => ∃ live, u = live.toRef ∧ T.Stands t live) fields
      (liveFields.map LiveField.describe) := by
  -- Fields are walked one after another, each as its own asking.
  have hyields := Asking.yields_all hfields
  clear hfields
  rw [List.forall₂_map_left_iff] at hyields
  rw [List.forall₂_map_right_iff]
  induction h generalizing fields with
  | nil =>
      cases hyields
      exact .nil
  | cons hf _ ih =>
      cases hyields with
      | cons hfield hrest => exact .cons (yields_buildField hf hscope hbindings hfield) (ih hrest)

/-- A structure that is a twin is built as a record of such fields. -/
theorem yields_buildStruct {scope scope' : FileScope} {bindings : Bindings} {name identity : String}
    {struct : Source.StructDecl} {decls : List Source.FieldDecl} {liveFields : List LiveField}
    (hfields : struct.fields = .named decls)
    (h : List.Forall₂ (Source.FieldDecl.IsTwin (files.view root) T.pairs scope name) decls liveFields)
    (hscope : scope.Alike files root scope') (hbindings : T.Binds bindings (some name))
    {descriptor : Descriptor SourceType}
    (hd : Asking.Yields files root (scope'.buildStruct bindings identity struct) descriptor) :
    ∃ fields,
      descriptor = (Descriptor.record identity fields
        (ContainerMetadata.ofAttributes struct.attributes).casing).withDescription
          (ContainerMetadata.ofAttributes struct.attributes).description ∧
      List.Forall₂ (Field.Rel fun t u => ∃ live, u = live.toRef ∧ T.Stands t live) fields
        (liveFields.map LiveField.describe) := by
  unfold FileScope.buildStruct at hd
  -- A struct with named fields is a record, whatever its attributes say.
  rw [hfields] at hd
  obtain ⟨fields, hyields, hd⟩ := Asking.yields_bind.1 hd
  exact ⟨fields, Asking.yields_pure.1 hd, yields_buildFields h hscope hbindings hyields⟩

/-- In a declaration without parameters `Self` alone is bound. -/
theorem binds_self {i : Instantiation} {name : String} (h : T.Stands i.toType (.declared name)) :
    T.Binds (i.bindings []) (some name) where
  other name hname := by
    show List.lookup name [("Self", i.toType)] = none
    rw [List.lookup_cons, beq_false_of_ne hname]
    rfl
  self name' hname' := by
    cases hname'
    exact ⟨i.toType, rfl, h⟩

/-- What a declaration is built into. -/
theorem yields_build {d : Declaration} {i : Instantiation} {name : String} (h : T.pairs d name)
    (halike : d.Alike files root i.declaration) (harguments : i.arguments = [])
    {built : Except Failure (Descriptor SourceType)} (hbuilt : Asking.Yields files root i.build built) :
    ∃ descriptor, built = .ok descriptor ∧ descriptor.identity = i.identity ∧
      T.Describes descriptor (.declared name) := by
  have hstands : T.Stands i.toType (.declared name) := .declared harguments halike h
  cases T.twin d name h with
  | @intro source struct decls tags liveFields hsource hmodule hdeclares hitem hparameters hfields hlive htags
      hdecls =>
    have hread := Source.ofFile_eq_ok halike.file hsource
    obtain ⟨answer, hanswer, hbuilt⟩ := Asking.yields_bind.1 hbuilt
    cases hanswer with
    | read hanswer =>
    rw [Asking.yields_pure.1 hanswer, hread] at hbuilt
    -- the scope may be that of another spelling of the file
    obtain ⟨found, hfound, hbuilt⟩ := Asking.yields_bind.1 hbuilt
    cases hfound with
    | scope hmay hfound =>
    rw [Asking.yields_pure.1 hfound] at hbuilt
    rcases hmay.of_isFile halike.file.right with ⟨read, file, hfile, hsame, rfl⟩ | ⟨_, _, hfails, -⟩
    · rw [hread] at hfile
      cases hfile
      have hscope : FileScope.Alike files root (FileScope.ofSource root d.file source)
          (FileScope.ofSource root file source) :=
        .intro (halike.file.trans hsame) hsource (Source.ofFile_eq_ok hsame hread)
      dsimp only at hbuilt
      rw [← halike.name, hitem] at hbuilt
      obtain ⟨descriptor, hdescriptor, rfl⟩ := Asking.yields_map.1 hbuilt
      rw [hparameters] at hdescriptor
      obtain ⟨fields, rfl, hrel⟩ := yields_buildStruct hfields hdecls hscope (binds_self hstands) hdescriptor
      have hlived : (LiveType.declared name).descriptor declarations =
          ((LiveDeclaration.record tags liveFields).describe name).withIdentity name := by
        rw [← hlive]
        rfl
      refine ⟨_, rfl, rfl, ?_, ?_, fun reason => nofun, fun env => rfl, ?_⟩
      · rw [hlived, ← htags]
        rfl
      · rw [hlived, ← htags]
        exact .record _ hrel
      · rw [hlived]
        rfl
    · rw [hread] at hfails
      cases hfails

/-- What is behind a reference that stands for a live type is what the live type describes. -/
theorem Stands.describes {t : SourceType} {live : LiveType} (h : T.Stands t live)
    {d : Descriptor SourceType} (hd : Asking.Yields files root t.fetch d) :
    d.identity = t.identity ∧ T.Describes d live := by
  -- Texts and characters are keys in any environment.
  have hkey {s : LiveScalar} {name : String} (htext : s.scalar = .text ∨ s.scalar = .character)
      {ρ : Type} (env : Environment ρ) : Descriptor.isTextKey env (.scalar name s.scalar) = true := by
    rcases htext with htext | htext <;> rw [htext] <;> rfl
  cases h with
  | scalar h =>
      rw [Asking.yields_pure.1 hd]
      exact ⟨rfl, rfl, .scalar _, fun reason => nofun, fun env => rfl, rfl⟩
  | json =>
      rw [Asking.yields_pure.1 hd]
      exact ⟨rfl, rfl, .dynamic, fun reason => nofun, fun env => rfl, rfl⟩
  | jsonMap =>
      rw [Asking.yields_pure.1 hd]
      have htext : T.Stands (scalarType "String" .text) (.scalar .string) :=
        @Stands.scalar _ _ _ T "String" .string rfl
      exact ⟨rfl, rfl, .map ⟨_, rfl, htext⟩ ⟨_, rfl, .json⟩, fun reason => nofun, fun env => rfl, rfl⟩
  | list container h =>
      rw [Asking.yields_pure.1 hd]
      exact ⟨rfl, rfl, .list ⟨_, rfl, h⟩, fun reason => nofun, fun env => rfl, rfl⟩
  | map container htext hstands h =>
      rw [Asking.yields_pure.1 hd]
      refine ⟨rfl, rfl, .map ⟨_, rfl, hstands⟩ ⟨_, rfl, h⟩, fun reason => nofun, fun env => ?_, ?_⟩
      · cases hstands with
        | scalar _ => exact hkey htext env
      · exact hkey htext _
  | pointer p h =>
      rw [Asking.yields_pure.1 hd]
      exact ⟨rfl, rfl, .pointer false ⟨_, rfl, h⟩, fun reason => nofun, fun env => rfl, rfl⟩
  | option h =>
      rw [Asking.yields_pure.1 hd]
      exact ⟨rfl, rfl, .pointer true ⟨_, rfl, h⟩, fun reason => nofun, fun env => rfl, rfl⟩
  -- Only here the descriptor is fetched; the other references carry theirs.
  | declared harguments halike h =>
      obtain ⟨built, hbuilt, rfl⟩ := Asking.yields_map.1 hd
      obtain ⟨descriptor, rfl, hidentity, hdescribes⟩ := yields_build h halike harguments hbuilt
      exact ⟨hidentity, hdescribes⟩

end Twins

end PayloadSchema
