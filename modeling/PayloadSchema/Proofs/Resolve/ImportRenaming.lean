import PayloadSchema.Proofs.Resolve.RenamedImport

/-!
# Descriptors with a renamed import

What a declaration is built into has the kind of the declared item, whatever the types in it mean, so that a
renamed import leaves the kind of every type as it is. The types in it mean the same if all their paths do
(`RenamedImport.Closed`), and are then built into the same descriptors all the way down.

* `RenamedImport.Between.fetch_sameKind` — what is behind a reference is of one kind;
* `RenamedImport.Between.fetch_renamed` — what is behind it is the same, and so are the references in it.
-/

namespace PayloadSchema

open Source (Item SourceFile TypeExpr renameHead)

/-! ## Kinds -/

/-- What kind of type a descriptor describes, without the types that it mentions. Of types without a schema
those that are unresolved are told from the others. -/
inductive Kind where
  | scalar (s : Scalar)
  | record
  | list
  | map
  | pointer (optional : Bool)
  | enumeration
  | dynamic
  | unsupported (unresolved : Bool)
deriving DecidableEq

def Shape.kind {τ : Type} : Shape τ → Kind
  | scalar s => .scalar s
  | record _ _ => .record
  | list _ => .list
  | map _ _ => .map
  | pointer _ optional => .pointer optional
  | enumeration _ => .enumeration
  | dynamic => .dynamic
  | unsupported reason => .unsupported (reason.startsWith unresolvedMark)

theorem Shape.Rel.kind_eq {σ τ : Type} {Q : String → String → Prop} {R : σ → τ → Prop}
    (hQ : ∀ reason reason', Q reason reason' → SameSense reason reason') {shape : Shape σ} {shape' : Shape τ}
    (h : shape.Rel Q R shape') : shape.kind = shape'.kind := by
  cases h with
  | unsupported h => exact congrArg Kind.unsupported (hQ _ _ h)
  | _ => rfl

/-- Descriptors of one kind, and of one identity if they are to be exact. -/
structure Descriptor.SameKind (exact : Prop) (d d' : Descriptor SourceType) : Prop where
  identity : exact → d.identity = d'.identity
  kind : d.shape.kind = d'.shape.kind

/-- The kind of the descriptor of a declared item. -/
def Source.Item.kind? : Item → Option Kind
  | .struct d =>
    match d.fields with
    | .named _ => some .record
    | .positional [_] => some (.pointer false)
    | _ => some (.unsupported false)
  | .enum _ => some .enumeration
  | .typeAlias _ => some (.pointer false)
  | _ => none

theorem Source.Item.kind?_rename (f : String → String) (item : Item) : (item.rename f).kind? = item.kind? := by
  cases item with
  | struct d =>
      rcases d with ⟨attributes, name, parameters, fields | (_ | ⟨field, _ | ⟨second, fields⟩⟩) | _⟩ <;>
        rw [Item.rename] <;> rfl
  | _ => rfl

/-- No text that begins in another way says that a type is unresolved. -/
theorem startsWith_unresolvedMark_eq_false (opening : String)
    (h : ¬ (opening.toList <+: unresolvedMark.toList ∨ unresolvedMark.toList <+: opening.toList)) (rest : String) :
    (opening ++ rest).startsWith unresolvedMark = false := by
  rw [Bool.eq_false_iff]
  intro hstarts
  have hprefix : opening.toList <+: (opening ++ rest).toList := by
    rw [String.toList_append]
    exact List.prefix_append _ _
  have hmark : unresolvedMark.toList <+: (opening ++ rest).toList := String.startsWith_string_iff.1 hstarts
  exact h (List.prefix_or_prefix_of_prefix hprefix hmark)

/-- What an item is built into has the identity of the declaration and the kind of the item, whatever the
types in it become. -/
theorem FileScope.buildItem_kind (scope : FileScope) (v : View) (i : Instantiation) (item : Item) :
    (∃ d, (scope.buildItem i item).under v = .ok d ∧ d.identity = i.identity ∧ item.kind? = some d.shape.kind) ∨
      (item.kind? = none ∧ (scope.buildItem i item).under v =
        .error (.unsupportedShape ("`" ++ i.declaration.name ++ "` is not a data type"))) := by
  cases item with
  | struct decl =>
      left
      rw [buildItem, Asking.under_map]
      -- No reason given here starts like that of an unresolved type, so the kinds agree on that as well.
      have htuple (n : Nat) :
          ("tuple struct with " ++ toString n ++ " fields").startsWith unresolvedMark = false := by
        rw [String.append_assoc]
        exact startsWith_unresolvedMark_eq_false _ (by decide) _
      have hunit : ("unit struct carries no data").startsWith unresolvedMark = false :=
        startsWith_unresolvedMark_eq_false "unit struct" (by decide) " carries no data"
      have hreason {unresolved : Bool} (h : unresolved = false) :
          some (Kind.unsupported false) = some (Kind.unsupported unresolved) := by
        rw [h]
      rcases decl with ⟨attributes, name, parameters, fields | (_ | ⟨field, _ | ⟨second, fields⟩⟩) | _⟩
      · exact ⟨_, rfl, by simp [buildStruct, Descriptor.withDescription, Descriptor.record], by
          simp [buildStruct, Descriptor.withDescription, Descriptor.record, Item.kind?, Shape.kind]⟩
      · exact ⟨_, rfl, rfl, hreason (htuple _)⟩
      · exact ⟨_, rfl, by simp [buildStruct, Descriptor.withDescription, Descriptor.withIdentity], by
          simp [buildStruct, Descriptor.withDescription, Descriptor.withIdentity, Descriptor.pointer,
            Item.kind?, Shape.kind]⟩
      · exact ⟨_, rfl, rfl, hreason (htuple _)⟩
      · exact ⟨_, rfl, rfl, hreason hunit⟩
  | enum decl =>
      left
      rw [buildItem, Asking.under_map]
      exact ⟨_, rfl, by simp [buildEnum, Descriptor.withDescription, Descriptor.enumeration], by
        simp [buildEnum, Descriptor.withDescription, Descriptor.enumeration, Item.kind?, Shape.kind]⟩
  | typeAlias decl =>
      left
      rw [buildItem, Asking.under_map]
      exact ⟨_, rfl, by simp [buildAlias, Descriptor.withDescription, Descriptor.withIdentity], by
        simp [buildAlias, Descriptor.withDescription, Descriptor.withIdentity, Descriptor.pointer,
          Item.kind?, Shape.kind]⟩
  | use | module | value | closed => exact .inr ⟨rfl, rfl⟩

/-- What is loaded behind references to one declaration is what was built, or a type without a schema for one
reason. -/
theorem SameExcept.loaded {R : Descriptor SourceType → Descriptor SourceType → Prop} {i i' : Instantiation}
    {built built' : Except Failure (Descriptor SourceType)} (h : SameExcept R built built')
    (hunsupported : ∀ reason, R (.unsupported i.identity reason) (.unsupported i'.identity reason)) :
    R (i.loaded built) (i'.loaded built') := by
  cases h with
  | ok h => exact h
  | error failure => exact hunsupported failure.message

namespace RenamedImport

variable {c : RenamedImport} {root file : FilePath} {v v' : View} {exact : Prop} {D : Set Declaration}

/-! ## What is found in the file -/

/-- The same data types are found in both versions of the file, renamed in the second one. -/
theorem find?_renamed (c : RenamedImport) (name : String) :
    c.renamed.find? name = (c.source.find? name).map (Item.rename c.replace) := by
  have hitems (items : List Item) :
      (items.map (Item.rename c.replace)).find? (fun item => item.declared? == some name) =
        (items.find? fun item => item.declared? == some name).map (Item.rename c.replace) := by
    rw [List.find?_map]
    congr 2
    funext item
    exact congrArg (· == some name) (item.declared?_rename c.replace)
  have huse (tree : Source.UseTree) : (Item.declared? (.use tree) == some name) = false := rfl
  unfold SourceFile.find? source renamed
  rw [List.find?_append, List.find?_append, List.find?_cons, List.find?_cons, huse, huse, hitems, hitems,
    Option.map_or]

/-- What is found in the file is an item other than the import. -/
theorem mem_of_find?_source {name : String} {item : Item} (h : c.source.find? name = some item) :
    item ∈ c.before ++ c.after := by
  have hmem := List.mem_of_find?_eq_some h
  have hdeclared : item.declared? = some name := by simpa using List.find?_some h
  rcases List.mem_append.1 hmem with hmem | hmem
  · exact List.mem_append_left _ hmem
  · rcases List.mem_cons.1 hmem with rfl | hmem
    · cases hdeclared
    · exact List.mem_append_right _ hmem

/-! ## Kinds of what is built -/

/-- A declaration cannot be built under either view, for one reason; or its item is built as it is in both, or
renamed in the second one. -/
theorem Between.build_cases (h : c.Between root v v') (d : Declaration) :
    (∃ failure, ∀ arguments, (Instantiation.mk d arguments).build.under v = .error failure ∧
      (Instantiation.mk d arguments).build.under v' = .error failure) ∨
    ∃ source scope item, v.source d.file = .ok source ∧ v.scope d.file = .ok scope ∧
      source.find? d.name = some item ∧
      (∀ arguments, (Instantiation.mk d arguments).build.under v = (scope.buildItem (.mk d arguments) item).under v) ∧
      ((∀ arguments,
          (Instantiation.mk d arguments).build.under v' = (scope.buildItem (.mk d arguments) item).under v') ∨
        c.Changes root v v' d.file ∧ ∀ arguments, (Instantiation.mk d arguments).build.under v' =
          ((c.renamedScope root d.file).buildItem (.mk d arguments) (item.rename c.replace)).under v') := by
  unfold Instantiation.build
  simp only [Asking.under_bind, Asking.under_sourceOf, Instantiation.declaration]
  rcases h.answers d.file with ⟨hsource, hscope⟩ | hchanges
  · -- a file that stays has one source and one scope under both views
    rw [hsource]
    cases v.source d.file with
    | error failure => exact .inl ⟨failure, fun _ => ⟨rfl, rfl⟩⟩
    | ok source =>
        simp only [Asking.under_bind, Asking.under_scopeOf, hscope]
        cases v.scope d.file with
        | error failure => exact .inl ⟨failure, fun _ => ⟨rfl, rfl⟩⟩
        | ok scope =>
            dsimp only
            cases hfind : source.find? d.name with
            | none => exact .inl ⟨_, fun _ => ⟨rfl, rfl⟩⟩
            | some item =>
                right
                refine ⟨source, scope, item, rfl, rfl, hfind, ?_, .inl ?_⟩
                · intro arguments
                  rfl
                · intro arguments
                  rfl
  · -- in a file with the import the same item is found, but renamed
    rw [hchanges.source, hchanges.renamed]
    simp only [Asking.under_bind, Asking.under_scopeOf, hchanges.scope, hchanges.renamedScope, find?_renamed]
    cases hfind : c.source.find? d.name with
    | none => exact .inl ⟨_, fun _ => ⟨rfl, rfl⟩⟩
    | some item =>
        right
        refine ⟨c.source, c.scope root d.file, item, rfl, rfl, hfind, ?_, .inr ⟨hchanges, ?_⟩⟩
        · intro arguments
          rfl
        · intro arguments
          rfl

/-- A declaration is built into descriptors of one kind, or fails in the same way. -/
theorem Between.build_sameKind (h : c.Between root v v') (d : Declaration) {arguments arguments' : List SourceType}
    (hid : exact → (Instantiation.mk d arguments).identity = (Instantiation.mk d arguments').identity) :
    SameExcept (Descriptor.SameKind exact) ((Instantiation.mk d arguments).build.under v)
      ((Instantiation.mk d arguments').build.under v') := by
  -- Both builds end in one item of the same kind, and the kind of the result is read off the item.
  have hitem (scope scope' : FileScope) {item item' : Item} (hkind : item'.kind? = item.kind?) :
      SameExcept (Descriptor.SameKind exact) ((scope.buildItem (.mk d arguments) item).under v)
        ((scope'.buildItem (.mk d arguments') item').under v') := by
    rcases scope.buildItem_kind v (.mk d arguments) item with ⟨e, he, hidentity, hk⟩ | ⟨hk, he⟩ <;>
      rcases scope'.buildItem_kind v' (.mk d arguments') item' with ⟨e', he', hidentity', hk'⟩ | ⟨hk', he'⟩ <;>
      rw [hkind, hk] at hk'
    · rw [he, he']
      have hsame : e.shape.kind = e'.shape.kind := Option.some.inj hk'
      refine .ok ⟨?_, hsame⟩
      intro hexact
      rw [hidentity, hidentity', hid hexact]
    · cases hk'
    · cases hk'
    · rw [he, he']
      exact .error _
  -- The views differ in one file: another one is read alike, and that one has its items renamed.
  rcases h.build_cases d with ⟨failure, hfails⟩ | ⟨-, scope, item, -, -, -, hbuild, hbuild' | ⟨-, hbuild'⟩⟩
  · rw [(hfails arguments).1, (hfails arguments').2]
    exact .error failure
  · rw [hbuild, hbuild']
    exact hitem scope scope rfl
  · rw [hbuild, hbuild']
    exact hitem scope _ (item.kind?_rename c.replace)

/-- The descriptors behind references that are renamed have one kind. -/
theorem Between.fetch_sameKind (h : c.Between root v v') {t t' : SourceType} (ht : t.Renamed exact D t') :
    (t.fetch.under v).SameKind exact (t'.fetch.under v') := by
  have hidentity := ht.identity_eq
  cases ht with
  | unsupported _ hreason => exact ⟨hidentity, congrArg Kind.unsupported hreason⟩
  | declared hd hid harguments =>
      unfold Instantiation.toType TypeRef.fetch Instantiation.load
      rw [Asking.under_map, Asking.under_map]
      have hbuilt := h.build_sameKind _ hid
      refine hbuilt.loaded ?_
      intro reason
      exact ⟨hid, rfl⟩
  | _ => exact ⟨hidentity, rfl⟩

/-! ## What is built, with all that is in it -/

section

variable (c) (root : FilePath) (v v' : View) (D : Set Declaration)

/-- The paths in a type of a file lead to declarations of a set, and to none of the two names through a file
with the import. -/
structure Leads (scope : FileScope) (type : TypeExpr) : Prop where
  clear : ∀ names ∈ type.paths, c.Clear root v v' scope names
  declared : ∀ names ∈ type.paths, ∀ d, scope.meaning v names = .declared d → d ∈ D

/-- So do the types in the declarations of the set. -/
structure Closed : Prop where
  fits : ∀ d ∈ D, c.Changes root v v' d.file → ∃ path, c.Fits root d.file path
  leads : ∀ d ∈ D, ∀ source scope item, v.source d.file = .ok source → v.scope d.file = .ok scope →
    source.find? d.name = some item → ∀ type ∈ item.types, c.Leads root v v' D scope type

/-- No text by which a part of a declaration of the set is known changes. -/
def KeepsAllTexts : Prop :=
  ∀ d ∈ D, c.Changes root v v' d.file → ∀ item, c.source.find? d.name = some item →
    ∀ type ∈ item.types, FileScope.KeepsTexts c.replace ((c.scope root d.file).texts v type)

end

/-- A type in a file that stays means the same under both views. -/
theorem Between.keeps (h : c.Between root v v') {scope : FileScope} {type : TypeExpr}
    (hleads : c.Leads root v v' D scope type) : FileScope.Keeps exact D scope scope v v' id type where
  meaning names hnames := by
    rw [Source.renameHead_id]
    exact ⟨h.meaning_eq (hleads.clear names hnames), hleads.declared names hnames⟩
  texts _ text _ := by rw [TypeExpr.rename_id]

/-- A type in the file with the import means the same with the new name. -/
theorem Between.keeps_renamed (h : c.Between root v v') {path : String} (hfits : c.Fits root file path)
    {type : TypeExpr} (hnew : ∀ names ∈ type.paths, names.head? ≠ some c.newName)
    (hleads : c.Leads root v v' D (c.scope root file) type)
    (htexts : exact → FileScope.KeepsTexts c.replace ((c.scope root file).texts v type)) :
    FileScope.Keeps exact D (c.scope root file) (c.renamedScope root file) v v' c.replace type where
  meaning names hnames :=
    ⟨meaning_rename root file h hfits (hnew names hnames) (hleads.clear names hnames),
      hleads.declared names hnames⟩
  texts := htexts

/-- Declarations over arguments that are renamed are built into descriptors that are. -/
theorem Between.build_renamed (h : c.Between root v v') (hclosed : c.Closed root v v' D)
    (htexts : exact → c.KeepsAllTexts root v v' D) {d : Declaration} (hd : d ∈ D)
    {arguments arguments' : List SourceType} (harguments : List.Forall₂ (TypeRef.Renamed exact D) arguments arguments') :
    SameExcept (Descriptor.Renamed exact (TypeRef.Renamed exact D)) ((Instantiation.mk d arguments).build.under v)
      ((Instantiation.mk d arguments').build.under v') := by
  rcases h.build_cases d with
    ⟨failure, hfails⟩ | ⟨source, scope, item, hsource, hscope, hfind, hbuild, hbuild' | ⟨hchanges, hbuild'⟩⟩
  · rw [(hfails arguments).1, (hfails arguments').2]
    exact .error failure
  · rw [hbuild, hbuild']
    -- in a file that stays each name is its own new name
    have hfree (name : String) (hname : id name ≠ name) :
        (name ≠ "Self" ∧ name ∉ item.parameters) ∧ id name ≠ "Self" ∧ id name ∉ item.parameters :=
      absurd rfl hname
    have hkeeps (type : TypeExpr) (htype : type ∈ item.types) :
        FileScope.Keeps exact D scope scope v v' id type :=
      h.keeps (hclosed.leads d hd source scope item hsource hscope hfind type htype)
    have hitem := FileScope.buildItem_rename hd harguments hfree hkeeps
    rw [item.rename_id] at hitem
    exact hitem
  · rw [hbuild, hbuild']
    obtain rfl : c.source = source := Except.ok.inj (hchanges.source.symm.trans hsource)
    obtain rfl : c.scope root d.file = scope := Except.ok.inj (hchanges.scope.symm.trans hscope)
    obtain ⟨path, hfits⟩ := hclosed.fits d hd hchanges
    have hitem := mem_of_find?_source hfind
    refine FileScope.buildItem_rename hd harguments ?_ ?_
    · intro name hname
      -- the only name that is replaced is that of the import
      have heq : name = c.name := by
        by_contra hne
        exact hname (replace_of_ne hne)
      rw [heq, replace_name]
      obtain ⟨hold, hnew⟩ := c.unbound item hitem
      obtain ⟨hself, hself'⟩ : c.name ≠ "Self" ∧ c.newName ≠ "Self" := name_ne (by decide)
      exact ⟨⟨hself, hold⟩, hself', hnew⟩
    · intro type htype
      have hnew := c.unused item hitem type htype
      have hleads := hclosed.leads d hd c.source _ item hchanges.source hchanges.scope hfind type htype
      refine h.keeps_renamed hfits hnew hleads ?_
      intro hexact
      exact htexts hexact d hd hchanges item hfind type htype

/-- The descriptors behind references that are renamed are so as well. -/
theorem Between.fetch_renamed (h : c.Between root v v') (hclosed : c.Closed root v v' D)
    (htexts : exact → c.KeepsAllTexts root v v' D) {t t' : SourceType} (ht : t.Renamed exact D t') :
    (t.fetch.under v).Renamed exact (TypeRef.Renamed exact D) (t'.fetch.under v') := by
  have hidentity := ht.identity_eq
  cases ht with
  | scalar _ s => exact ⟨hidentity, rfl, .scalar s⟩
  | dynamic _ => exact ⟨hidentity, rfl, .dynamic⟩
  | unsupported _ hreason => exact ⟨hidentity, rfl, .unsupported hreason⟩
  | list _ ht => exact ⟨hidentity, rfl, .list ht⟩
  | map _ _ hkey ht => exact ⟨hidentity, rfl, .map hkey ht⟩
  | pointer _ ht => exact ⟨hidentity, rfl, .pointer false ht⟩
  | optional _ ht => exact ⟨hidentity, rfl, .pointer true ht⟩
  | payload _ hfields => exact ⟨hidentity, rfl, .record none hfields⟩
  -- Only a declared type is loaded; the others carry their descriptor with them.
  | declared hd hid harguments =>
      unfold Instantiation.toType TypeRef.fetch Instantiation.load
      rw [Asking.under_map, Asking.under_map]
      have hbuilt := h.build_renamed hclosed htexts hd harguments
      refine hbuilt.loaded ?_
      intro reason
      exact ⟨hid, rfl, .unsupported rfl⟩

end RenamedImport

end PayloadSchema
