import PayloadSchema.Proofs.Resolve.Alike

/-!
# Searches have one outcome, up to spelling

Every search for declarations, types and descriptors passes on what it was told and shows the path of a
file nowhere but in reasons. So from alike scopes, bindings and instantiations it has alike outcomes, one
lemma for each function. The induction is the one of the function: over the links of a chain of imports, and
over the syntax of a type.

* `FileScope.lookup_alike`, `FileScope.walk_alike` — finding declarations and types;
* `Instantiation.load_alike`, `TypeRef.fetch_alike` — what is behind a reference;
* `resolveDeclared_alike`, `resolveExpression_alike` — the searches for descriptors.
-/

namespace PayloadSchema

variable {files : Files} {root : FilePath}

open Asking (Alike)

/-! ## Declarations -/

namespace FileScope

variable {scope scope' : FileScope}

/-- What two spellings of a file declare under one name are declarations that are alike. -/
theorem Alike.declaration (h : scope.Alike files root scope') {name : String}
    (hname : scope.declares name = true) :
    (scope.declaration name).Alike files root (scope'.declaration name) := by
  cases h with
  | @intro p q source h hp hq =>
      -- both files read as a source that declares the name
      have hleft : ((ofSource root p source).declaration name).IsDeclared files root := ⟨_, hp, hname, rfl⟩
      have hright : ((ofSource root q source).declaration name).IsDeclared files root := ⟨_, hq, hname, rfl⟩
      exact ⟨h, rfl, hleft, hright⟩

theorem Alike.declares_eq (h : scope.Alike files root scope') : scope.declares = scope'.declares := by
  cases h
  rfl

/-- Two spellings of a file have one module. -/
theorem Alike.modulePath_eq (h : scope.Alike files root scope') :
    scope.modulePath = scope'.modulePath := by
  cases h with
  | intro h _ _ => exact ModulePath.ofFile_congr root h.parts

theorem Alike.children_eq (h : scope.Alike files root scope') : scope.children = scope'.children := by
  cases h
  rfl

/-- Two spellings of a file import the same, also where the paths begin with `self` or `super`. -/
theorem Alike.imports_eq (h : scope.Alike files root scope') : scope.imports = scope'.imports := by
  cases h with
  | intro h _ _ =>
      unfold ofSource
      rw [ModulePath.ofFile_congr root h.parts]

/-- Two spellings of a file import the same paths for a name. -/
theorem Alike.importedPaths_eq (h : scope.Alike files root scope') :
    scope.importedPaths = scope'.importedPaths := by
  funext path name
  unfold importedPaths
  rw [h.imports_eq]

/-- Two spellings of a file know the same origin of a name. -/
theorem Alike.origin?_eq (h : scope.Alike files root scope') : scope.origin? = scope'.origin? := by
  funext names
  unfold origin?
  rw [h.imports_eq]

/-- Two spellings of a file own the same names. -/
theorem Alike.owns_eq (h : scope.Alike files root scope') : scope.owns = scope'.owns := by
  funext names
  have hpath : scope.ownsPath = scope'.ownsPath := by
    funext path
    unfold ownsPath
    rw [h.modulePath_eq]
  unfold owns
  rw [h.declares_eq, h.origin?_eq, hpath]

end FileScope

namespace Declaration

/-- In files that are alike, the first to declare a name is the same, up to spelling. -/
theorem find?_declares_alike {scopes scopes' : List FileScope}
    (h : List.Forall₂ (FileScope.Alike files root) scopes scopes') (name : String) :
    SameOption (fun scope scope' => scope.declares name = true ∧ scope.Alike files root scope')
      (scopes.find? (·.declares name)) (scopes'.find? (·.declares name)) := by
  induction h with
  | nil => exact .none
  | @cons scope scope' scopes scopes' hscope _ ih =>
      rw [List.find?_cons, List.find?_cons, ← hscope.declares_eq]
      cases hname : scope.declares name with
      | true => exact .some ⟨hname, hscope⟩
      | false => exact ih

/-- Files that are alike import the same paths for a name, in the same order. -/
theorem flatMap_importedPaths_eq {scopes scopes' : List FileScope}
    (h : List.Forall₂ (FileScope.Alike files root) scopes scopes') (path name : String) :
    scopes.flatMap (·.importedPaths path name) = scopes'.flatMap (·.importedPaths path name) := by
  induction h with
  | nil => rfl
  | cons hscope _ ih => rw [List.flatMap_cons, List.flatMap_cons, hscope.importedPaths_eq, ih]

/-- A declaration that is looked for over so many links is the same, up to spelling. -/
theorem within_alike (links : Nat) (path : String) :
    Asking.Alike files root (SameOption (Declaration.Alike files root)) (within links path)
      (within links path) := by
  induction links generalizing path with
  | zero => exact .pure .none
  | succ links ih =>
      unfold within
      split
      · exact .pure .none
      · next modulePath name hcut =>
        split
        · exact .pure .none
        · refine (Asking.scopesOf_alike modulePath).bind ?_
          intro scopes scopes' hscopes
          have hfound := find?_declares_alike hscopes name
          rw [flatMap_importedPaths_eq hscopes]
          generalize scopes.find? (·.declares name) = found,
            scopes'.find? (·.declares name) = found' at hfound
          cases hfound with
          | none =>
              -- no file declares the name, so the paths are tried that they import for it
              have hsame (paths : List String) : List.Forall₂ Eq paths paths := List.forall₂_same.2 fun _ _ => rfl
              refine .first (hsame _) ?_
              rintro next _ rfl
              exact ih next
          | some hscope =>
              obtain ⟨hname, halike⟩ := hscope
              exact .pure (.some (halike.declaration hname))

/-- The declaration at a path is the same, up to spelling. -/
theorem atPath_alike (path : String) :
    Asking.Alike files root (SameOption (Declaration.Alike files root)) (atPath path) (atPath path) :=
  within_alike _ path

end Declaration

namespace FileScope

variable {scope scope' : FileScope}

/-- What is found through the glob imports of a file is the same, up to spelling. -/
theorem lookupInGlobs_alike (h : scope.Alike files root scope') (name : String) :
    Asking.Alike files root (SameOption (Declaration.Alike files root)) (scope.lookupInGlobs name)
      (scope'.lookupInGlobs name) := by
  unfold lookupInGlobs
  rw [h.imports_eq]
  have hsame (globs : List String) : List.Forall₂ Eq globs globs := List.forall₂_same.2 fun _ _ => rfl
  refine .first (hsame _) ?_
  rintro glob _ rfl
  exact Declaration.atPath_alike _

/-- What names stand for in a file is the same, up to spelling. -/
theorem lookup_alike (h : scope.Alike files root scope') (names : List String) :
    Asking.Alike files root (SameOption (Declaration.Alike files root)) (scope.lookup names)
      (scope'.lookup names) := by
  -- a single name may be declared in the file, others are looked for at the path that they make
  rcases names with _ | ⟨name, _ | ⟨second, rest⟩⟩
  · exact .pure .none
  · rw [lookup, lookup, ← h.declares_eq, h.imports_eq]
    split
    next hname => exact .pure (.some (h.declaration hname))
    next =>
      split
      · exact Declaration.atPath_alike _
      · exact lookupInGlobs_alike h name
  · rw [lookup, lookup, h.imports_eq, h.modulePath_eq, h.children_eq]
    split
    · exact Declaration.atPath_alike _
    · split
      · exact Declaration.atPath_alike _
      · exact .pure .none
    all_goals simp

end FileScope

/-! ## References -/

/-- References that are alike have one identity. -/
theorem TypeRef.Alike.identity_eq {t t' : SourceType} (h : t.Alike files root t') :
    t.identity = t'.identity := by
  cases h with
  | list hid _ => exact congrArg (fun id => "Vec<" ++ id ++ ">") hid
  | map hkeyid hid _ _ =>
      exact congrArg₂ (fun key id => "Map<" ++ key ++ ", " ++ id ++ ">") hkeyid hid
  | pointer hid _ => exact congrArg (fun id => "Box<" ++ id ++ ">") hid
  | optional hid _ => exact congrArg (fun id => "Option<" ++ id ++ ">") hid
  | declared hid _ _ => exact hid
  | _ => rfl

/-- Of references that are alike, both or none are optional. -/
theorem TypeRef.Alike.isOptional_eq {t t' : SourceType} (h : t.Alike files root t') :
    t.isOptional = t'.isOptional := by
  cases h <;> rfl

/-- Declarations that are alike lie in one module. -/
theorem Declaration.Alike.modulePath_eq {d d' : Declaration} (h : d.Alike files root d') :
    d.modulePath = d'.modulePath := by
  have hmodule := ModulePath.ofFile_congr root h.file.parts
  obtain ⟨_, _, _, hd⟩ := h.left
  obtain ⟨_, _, _, hd'⟩ := h.right
  rw [hd, hd', hmodule]

/-- Declarations that are alike have one identity with arguments that are alike. -/
theorem Instantiation.Alike.identity_eq {i i' : Instantiation} (h : i.Alike files root i') :
    i.identity = i'.identity := by
  have hidentities : i.arguments.map TypeRef.identity = i'.arguments.map TypeRef.identity :=
    map_eq_map_iff_forall₂.2 (h.arguments.imp fun _ _ => TypeRef.Alike.identity_eq)
  unfold Instantiation.identity
  rw [h.declaration.modulePath_eq, h.declaration.name]
  -- without arguments the identity is the path alone, and there are as many in both
  cases harguments : i.arguments with
  | nil =>
      rw [harguments, List.map_nil, eq_comm, List.map_eq_nil_iff] at hidentities
      rw [hidentities]
  | cons t ts =>
      rw [harguments] at hidentities
      cases harguments' : i'.arguments with
      | nil => rw [harguments'] at hidentities; cases hidentities
      | cons u us =>
          rw [harguments'] at hidentities
          dsimp only
          rw [hidentities]

theorem Instantiation.Alike.toType {i i' : Instantiation} (h : i.Alike files root i') :
    i.toType.Alike files root i'.toType :=
  .declared h.identity_eq h.declaration h.arguments

/-- Bindings of the same names to references that are alike. -/
def Bindings.Alike (files : Files) (root : FilePath) (bindings bindings' : Bindings) : Prop :=
  List.Forall₂ (fun entry entry' => entry.1 = entry'.1 ∧ entry.2.Alike files root entry'.2) bindings
    bindings'

/-- A name is bound to references that are alike, or to none in both. -/
theorem Bindings.Alike.lookup {bindings bindings' : Bindings}
    (h : Bindings.Alike files root bindings bindings') (name : String) :
    SameOption (TypeRef.Alike files root) (bindings.lookup name) (bindings'.lookup name) :=
  sameOption_lookup h name

/-! ## Walking over a type -/

/-- Arguments that become alike references. -/
abbrev ArgumentsAlike (files : Files) (root : FilePath) (arguments arguments' : List (Asking SourceType)) :
    Prop :=
  List.Forall₂ (Asking.Alike files root (TypeRef.Alike files root)) arguments arguments'

/-- An argument at a place becomes alike references; where there is none it is left open. -/
theorem argumentAt_alike {arguments arguments' : List (Asking SourceType)}
    (h : ArgumentsAlike files root arguments arguments') (index : Nat) :
    Asking.Alike files root (TypeRef.Alike files root) (argumentAt arguments index)
      (argumentAt arguments' index) := by
  unfold argumentAt
  induction h generalizing index with
  | nil => exact .pure (.dynamic "_")
  | cons hargument _ ih =>
      cases index with
      | zero => exact hargument
      | succ index => exact ih index

/-- A name is that of a scalar only as a name of scalars. -/
theorem WellKnown.scalarOf?_of_ofName? {name : String} {origin : Option String} {s : Scalar}
    (h : WellKnown.ofName? name origin = some (.scalar s)) : scalarOf? name = some s := by
  unfold WellKnown.ofName? at h
  cases hs : scalarOf? name with
  | some s' =>
      rw [hs] at h
      dsimp only at h
      split_ifs at h <;> cases h
      rfl
  | none =>
      rw [hs] at h
      dsimp only at h
      split_ifs at h <;> cases h

/-- A well-known type becomes alike references with arguments that do. -/
theorem WellKnown.toType_alike {name : String} {origin : Option String} {known : WellKnown}
    (hknown : WellKnown.ofName? name origin = some known) {arguments arguments' : List (Asking SourceType)}
    (h : ArgumentsAlike files root arguments arguments') :
    Asking.Alike files root (TypeRef.Alike files root) (known.toType name arguments)
      (known.toType name arguments') := by
  have hfirst := argumentAt_alike h 0
  have hsecond := argumentAt_alike h 1
  cases known with
  | optional =>
      refine hfirst.bind ?_
      intro t t' ht
      exact .pure (.optional ht.identity_eq ht)
  | pointer =>
      refine hfirst.bind ?_
      intro t t' ht
      exact .pure (.pointer ht.identity_eq ht)
  | list =>
      refine hfirst.bind ?_
      intro t t' ht
      exact .pure (.list ht.identity_eq ht)
  | map =>
      refine hfirst.bind ?_
      intro key key' hkey
      refine hsecond.bind ?_
      intro value value' hvalue
      exact .pure (.map hkey.identity_eq hvalue.identity_eq hkey hvalue)
  | scalar s =>
      have hscalar := WellKnown.scalarOf?_of_ofName? hknown
      exact .pure (.scalar hscalar)
  | json => exact .pure (.dynamic _)
  | jsonMap => exact .pure (.map rfl rfl (.scalar rfl) (.dynamic _))

namespace FileScope

variable {scope scope' : FileScope}

/-- A name is well known in both of two files that are alike, and becomes alike references. -/
theorem wellKnown?_alike (hscope : scope.Alike files root scope') (names : List String)
    {arguments arguments' : List (Asking SourceType)} (h : ArgumentsAlike files root arguments arguments') :
    Asking.Alike files root (SameOption (TypeRef.Alike files root)) (scope.wellKnown? names arguments)
      (scope'.wellKnown? names arguments') := by
  unfold wellKnown?
  rw [hscope.owns_eq, hscope.origin?_eq]
  dsimp only
  split
  · exact .pure .none
  · split
    · exact .pure .none
    next known hknown =>
      refine (WellKnown.toType_alike hknown h).bind ?_
      intro type type' htype
      split
      · -- a name that nothing binds may come with all names of a module, which goes first
        refine (lookupInGlobs_alike hscope _).bind ?_
        intro found found' hfound
        cases hfound with
        | none => exact .pure (.some htype)
        | some _ => exact .pure .none
      · exact .pure (.some htype)

/-- A name that is bound is bound in both, to references that are alike. -/
theorem bound?_alike {bindings bindings' : Bindings} (hbindings : Bindings.Alike files root bindings bindings')
    (names : List String) {arguments arguments' : List (Asking SourceType)}
    (h : ArgumentsAlike files root arguments arguments') :
    SameOption (TypeRef.Alike files root) (bound? bindings names arguments)
      (bound? bindings' names arguments') := by
  have hempty : arguments.isEmpty = arguments'.isEmpty := by cases h <;> rfl
  unfold bound?
  rw [hempty]
  split
  · exact hbindings.lookup _
  · exact .none

/-- A name with arguments becomes alike references in files that are alike. -/
theorem named_alike (hscope : scope.Alike files root scope') {bindings bindings' : Bindings}
    (hbindings : Bindings.Alike files root bindings bindings') (names : List String) (display : String)
    {arguments arguments' : List (Asking SourceType)} (h : ArgumentsAlike files root arguments arguments') :
    Asking.Alike files root (TypeRef.Alike files root) (scope.named bindings names display arguments)
      (scope'.named bindings' names display arguments') := by
  have hbound := bound?_alike hbindings names h
  unfold named
  generalize bound? bindings names arguments = type, bound? bindings' names arguments' = type' at hbound
  -- The three places a name is looked up in, in order; each finds something on both sides or on neither.
  cases hbound with
  | some htype => exact .pure htype
  | none =>
      refine (wellKnown?_alike hscope names h).bind ?_
      intro known known' hknown
      cases hknown with
      | some htype => exact .pure htype
      | none =>
          refine (lookup_alike hscope names).bind ?_
          intro found found' hfound
          cases hfound with
          | none => exact .pure (.unsupported _ _)
          | some hdeclaration =>
              refine (Asking.Alike.all h).bind ?_
              intro types types' harguments
              exact .pure (Instantiation.Alike.toType ⟨hdeclaration, harguments⟩)

mutual
/-- A written type becomes alike references in files that are alike. -/
theorem walk_alike (hscope : scope.Alike files root scope') {bindings bindings' : Bindings}
    (hbindings : Bindings.Alike files root bindings bindings') : ∀ type : Source.TypeExpr,
    Asking.Alike files root (TypeRef.Alike files root) (scope.walk bindings type) (scope'.walk bindings' type)
  | .path true path => by
      rw [walk, walk]
      exact .pure (.unsupported _ _)
  | .path false ⟨leading, segments⟩ => by
      rw [walk, walk]
      exact named_alike hscope hbindings _ _ (walkLast_alike hscope hbindings segments)
  -- Each wrapper keeps what its target shares.
  | .reference target => by
      rw [walk, walk]
      refine (walk_alike hscope hbindings target).bind ?_
      intro t t' ht
      exact .pure (.pointer ht.identity_eq ht)
  | .pointer target => by
      rw [walk, walk]
      refine (walk_alike hscope hbindings target).bind ?_
      intro t t' ht
      exact .pure (.pointer ht.identity_eq ht)
  | .slice element => by
      rw [walk, walk]
      refine (walk_alike hscope hbindings element).bind ?_
      intro t t' ht
      exact .pure (.list ht.identity_eq ht)
  | .array element => by
      rw [walk, walk]
      refine (walk_alike hscope hbindings element).bind ?_
      intro t t' ht
      exact .pure (.list ht.identity_eq ht)
  | .parenthesized inner => by
      rw [walk, walk]
      exact walk_alike hscope hbindings inner
  | .tuple [] => .pure (.unsupported _ _)
  | .tuple (_ :: _) => .pure (.unsupported _ _)
  | .function _ => .pure (.unsupported _ _)
  | .traitObject _ => .pure (.unsupported _ _)
  | .implTrait => .pure (.unsupported _ _)
  | .never => .pure (.unsupported _ _)
  | .inferred => .pure (.unsupported _ _)
  | .macroCall => .pure (.unsupported _ _)
  | .other => .pure (.unsupported _ _)
/-- The arguments of the last segment of a path become alike references. -/
theorem walkLast_alike (hscope : scope.Alike files root scope') {bindings bindings' : Bindings}
    (hbindings : Bindings.Alike files root bindings bindings') :
    ∀ segments : List (Source.Segment Source.TypeExpr),
      ArgumentsAlike files root (scope.walkLast bindings segments) (scope'.walkLast bindings' segments)
  | [] => by
      rw [walkLast, walkLast]
      exact .nil
  | [⟨_, _, types⟩] => by
      rw [walkLast, walkLast]
      exact walkAll_alike hscope hbindings types
  | _ :: segment :: segments => by
      rw [walkLast, walkLast]
      exact walkLast_alike hscope hbindings (segment :: segments)
/-- Written types become alike references, one by one. -/
theorem walkAll_alike (hscope : scope.Alike files root scope') {bindings bindings' : Bindings}
    (hbindings : Bindings.Alike files root bindings bindings') : ∀ types : List Source.TypeExpr,
    ArgumentsAlike files root (scope.walkAll bindings types) (scope'.walkAll bindings' types)
  | [] => by
      rw [walkAll, walkAll]
      exact .nil
  | type :: types => by
      rw [walkAll, walkAll]
      exact .cons (walk_alike hscope hbindings type) (walkAll_alike hscope hbindings types)
end

end FileScope

/-! ## Building descriptors -/

/-- The parameters of a declaration are bound alike, and so is the name of the type itself. -/
theorem Instantiation.bindings_alike {i i' : Instantiation} (h : i.Alike files root i')
    (parameters : List String) :
    Bindings.Alike files root (i.bindings parameters) (i'.bindings parameters) := by
  have hbound (names : List String) (types types' : List SourceType)
      (htypes : List.Forall₂ (TypeRef.Alike files root) types types') :
      Bindings.Alike files root (bindings.bound names types) (bindings.bound names types') := by
    induction names generalizing types types' with
    | nil => exact .nil
    | cons name names ih =>
        cases htypes with
        | nil =>
            -- a parameter without an argument is left open under its name
            exact .cons ⟨rfl, .dynamic name⟩ (ih [] [] .nil)
        | cons htype htypes => exact .cons ⟨rfl, htype⟩ (ih _ _ htypes)
  have hparameters := List.forall₂_reverse_iff.2 (hbound parameters _ _ h.arguments)
  exact .cons ⟨rfl, h.toType⟩ hparameters

theorem Descriptor.Alike.withDescription {d d' : Descriptor SourceType} (h : d.Alike files root d')
    (description : Option String) :
    (d.withDescription description).Alike files root (d'.withDescription description) := by
  cases h with
  | intro identity _ h => exact .intro identity description h

theorem Descriptor.pointer_alike {t t' : SourceType} (h : t.Alike files root t') (identity : String) :
    ((Descriptor.pointer t).withIdentity identity).Alike files root
      ((Descriptor.pointer t').withIdentity identity) :=
  .intro identity none (.pointer false h)

namespace FileScope

section

variable {scope scope' : FileScope} (hscope : scope.Alike files root scope') {bindings bindings' : Bindings}
  (hbindings : Bindings.Alike files root bindings bindings')

include hscope hbindings

/-- A field is built alike: only its type depends on the file. -/
theorem buildField_alike (f : Source.FieldDecl) :
    Asking.Alike files root (Field.Rel (TypeRef.Alike files root)) (scope.buildField bindings f)
      (scope'.buildField bindings' f) := by
  refine (walk_alike hscope hbindings f.type).bind ?_
  intro type type' htype
  refine .pure ?_
  -- whether the field is optional is read off its type
  rw [htype.isOptional_eq]
  exact .intro _ _ _ htype

/-- Fields are built alike, one by one. -/
theorem buildFields_alike (fields : List Source.FieldDecl) :
    Asking.Alike files root (List.Forall₂ (Field.Rel (TypeRef.Alike files root)))
      (scope.buildFields bindings fields) (scope'.buildFields bindings' fields) := by
  refine .all ?_
  rw [List.forall₂_map_left_iff, List.forall₂_map_right_iff, List.forall₂_same]
  intro f _
  exact buildField_alike hscope hbindings f

/-- A structure is built alike. -/
theorem buildStruct_alike (identity : String) (d : Source.StructDecl) :
    Asking.Alike files root (Descriptor.Alike files root) (scope.buildStruct bindings identity d)
      (scope'.buildStruct bindings' identity d) := by
  unfold buildStruct
  dsimp only
  -- Named fields make a record and a single one a pointer; the other forms carry no data.
  split
  · refine (buildFields_alike hscope hbindings _).bind ?_
    intro fields fields' hfields
    exact .pure (.intro _ _ (.record _ hfields))
  · refine (walk_alike hscope hbindings _).bind ?_
    intro target target' htarget
    have hpointer := Descriptor.pointer_alike htarget identity
    exact .pure (hpointer.withDescription _)
  · exact .pure (.intro _ _ (.unsupported (.inl rfl)))
  · exact .pure (.intro _ _ (.unsupported (.inl rfl)))

/-- The payload of a variant is built alike, if there is one. -/
theorem buildPayload_alike (identity : String) (fields : Source.Fields) :
    Asking.Alike files root (SameOption (TypeRef.Alike files root)) (scope.buildPayload bindings identity fields)
      (scope'.buildPayload bindings' identity fields) := by
  unfold buildPayload
  split
  · exact .pure .none
  · refine (walk_alike hscope hbindings _).map ?_
    intro t t' ht
    exact .some ht
  · exact .pure (.some (.unsupported _ _))
  · refine (buildFields_alike hscope hbindings _).bind ?_
    intro fields fields' hfields
    exact .pure (.some (.payload _ hfields))

/-- A variant is built alike. -/
theorem buildVariant_alike (identity : String) (casing : Option Casing) (variant : Source.VariantDecl) :
    Asking.Alike files root (Variant.Rel (TypeRef.Alike files root))
      (scope.buildVariant bindings identity casing variant)
      (scope'.buildVariant bindings' identity casing variant) := by
  refine (buildPayload_alike hscope hbindings _ _).bind ?_
  intro payload payload' hpayload
  exact .pure (.intro _ hpayload)

/-- An enumeration is built alike. -/
theorem buildEnum_alike (identity : String) (d : Source.EnumDecl) :
    Asking.Alike files root (Descriptor.Alike files root) (scope.buildEnum bindings identity d)
      (scope'.buildEnum bindings' identity d) := by
  refine Asking.Alike.bind (R := List.Forall₂ (Variant.Rel (TypeRef.Alike files root))) (.all ?_) ?_
  · rw [List.forall₂_map_left_iff, List.forall₂_map_right_iff, List.forall₂_same]
    intro variant _
    exact buildVariant_alike hscope hbindings identity _ variant
  · intro variants variants' hvariants
    exact .pure (.intro _ _ (.enumeration hvariants))

/-- An alias is built alike. -/
theorem buildAlias_alike (identity : String) (d : Source.AliasDecl) :
    Asking.Alike files root (Descriptor.Alike files root) (scope.buildAlias bindings identity d)
      (scope'.buildAlias bindings' identity d) := by
  refine (walk_alike hscope hbindings d.type).bind ?_
  intro target target' htarget
  have hpointer := Descriptor.pointer_alike htarget identity
  exact .pure (hpointer.withDescription _)

end

/-- What is declared is built alike, or it is no data type in both files. -/
theorem buildItem_alike {scope scope' : FileScope} (hscope : scope.Alike files root scope')
    {i i' : Instantiation} (h : i.Alike files root i') (item : Source.Item) :
    Asking.Alike files root (SameOutcome files (Descriptor.Alike files root)) (scope.buildItem i item)
      (scope'.buildItem i' item) := by
  have hbindings := Instantiation.bindings_alike h
  have hok (d d' : Descriptor SourceType) (hd : d.Alike files root d') :
      SameOutcome files (Descriptor.Alike files root) (.ok d) (.ok d') := .ok hd
  cases item with
  | struct d =>
      rw [buildItem, buildItem, h.identity_eq]
      have hbuilt := buildStruct_alike hscope (hbindings d.parameters) i'.identity d
      exact hbuilt.map hok
  | enum d =>
      rw [buildItem, buildItem, h.identity_eq]
      have hbuilt := buildEnum_alike hscope (hbindings d.parameters) i'.identity d
      exact hbuilt.map hok
  | typeAlias d =>
      rw [buildItem, buildItem, h.identity_eq]
      have hbuilt := buildAlias_alike hscope (hbindings d.parameters) i'.identity d
      exact hbuilt.map hok
  | _ =>
      unfold buildItem
      rw [h.declaration.name]
      exact .pure (.error (.refl _))

end FileScope

namespace Instantiation

variable {i i' : Instantiation}

/-- What is behind declarations that are alike is alike, or its failures differ in the spelling of a path
only. -/
theorem build_alike (h : i.Alike files root i') :
    Asking.Alike files root (SameOutcome files (Descriptor.Alike files root)) i.build i'.build := by
  have hfile := h.declaration.file
  unfold build
  dsimp only
  rw [h.declaration.name]
  -- the source and the scope are asked for separately, and either may fail
  refine (Asking.sourceOf_alike hfile).bind ?_
  intro read read' hread
  cases hread with
  | error hfailure => exact .pure (.error hfailure)
  | @ok source _ hsource =>
      subst hsource
      refine (Asking.scopeOf_alike_of_isFile hfile).bind ?_
      intro answer answer' hanswer
      cases hanswer with
      | error hfailure => exact .pure (.error hfailure)
      | ok hscope =>
          dsimp only
          split
          · exact .pure (.error (.notDeclared hfile _))
          · exact FileScope.buildItem_alike hscope h _

/-- What is loaded for declarations that are alike is alike, also where it says why there is none. -/
theorem load_alike (h : i.Alike files root i') :
    Asking.Alike files root (Descriptor.Alike files root) i.load i'.load := by
  refine (build_alike h).map ?_
  intro built built' hbuilt
  cases hbuilt with
  | ok hd => exact hd
  | error hfailure =>
      unfold loaded
      rw [h.identity_eq]
      exact .intro _ _ (.unsupported (.inr ⟨_, _, hfailure, rfl, rfl⟩))

end Instantiation

/-- What is behind references that are alike is alike. -/
theorem TypeRef.fetch_alike {t t' : SourceType} (h : t.Alike files root t') :
    Asking.Alike files root (Descriptor.Alike files root) t.fetch t'.fetch := by
  have hidentity := h.identity_eq
  cases h with
  | scalar _ => exact .pure (.intro _ _ (.scalar _))
  | dynamic _ => exact .pure (.intro _ _ .dynamic)
  | unsupported _ _ => exact .pure (.intro _ _ (.unsupported (.inl rfl)))
  | list _ h => exact .pure (.of_eq hidentity rfl (.list h))
  | map _ _ hkey h => exact .pure (.of_eq hidentity rfl (.map hkey h))
  | pointer _ h => exact .pure (.of_eq hidentity rfl (.pointer false h))
  | optional _ h => exact .pure (.of_eq hidentity rfl (.pointer true h))
  | payload _ h => exact .pure (.intro _ _ (.record none h))
  | declared _ hdeclaration harguments => exact Instantiation.load_alike ⟨hdeclaration, harguments⟩

/-! ## Searches for descriptors -/

/-- How the texts of failures begin. -/
def Failure.openings : List String :=
  ["IO error: ", "not found: ", "failed to parse ", "unsupported type shape: ",
    "invalid configuration: ", "serialization error: "]

/-- The text of a failure begins in one of the known ways. -/
theorem Failure.exists_opening (f : Failure) :
    ∃ opening ∈ openings, opening.toList <+: f.message.toList := by
  -- a text that is put behind an opening
  have hbehind (n : Nat) (opening rest : String) (hn : openings[n]? = some opening)
      (hmessage : f.message = opening ++ rest) :
      ∃ opening ∈ openings, opening.toList <+: f.message.toList :=
    ⟨opening, List.mem_of_getElem? hn, rest.toList, by rw [hmessage, String.toList_append]⟩
  cases f with
  | io message => exact hbehind 0 _ message rfl rfl
  | notFound what => exact hbehind 1 _ what rfl rfl
  | parseFailure file message =>
      refine hbehind 2 _ (file.text ++ ": " ++ message) rfl ?_
      rw [← String.append_assoc, ← String.append_assoc]
      rfl
  | unsupportedShape what => exact hbehind 3 _ what rfl rfl
  | invalidConfig message => exact hbehind 4 _ message rfl rfl
  | serialization message => exact hbehind 5 _ message rfl rfl

/-- The text of a failure never begins as the reason of an unresolved type does. -/
theorem Failure.not_startsWith_message (f : Failure) :
    f.message.startsWith unresolvedMark = false := by
  rw [Bool.eq_false_iff]
  intro h
  obtain ⟨opening, hopening, hmessage⟩ := f.exists_opening
  have hcompare := List.prefix_or_prefix_of_prefix hmessage (String.startsWith_string_iff.1 h)
  have hdiffer : ∀ opening ∈ openings,
      ¬ (opening.toList <+: unresolvedMark.toList ∨ unresolvedMark.toList <+: opening.toList) := by
    decide
  exact hdiffer opening hopening hcompare

/-- Descriptors that are alike are given back alike, and failures in them are told apart from unresolved types
in both. -/
theorem outcome_alike {d d' : Descriptor SourceType} (h : d.Alike files root d') :
    SameOutcome files (Descriptor.Alike files root) (outcome d) (outcome d') := by
  cases h with
  | intro identity description h =>
      cases h with
      | unsupported h =>
          -- the reasons are one text, or those of two failures, whose texts never look like an unresolved type
          rcases h with rfl | ⟨f, f', hf, rfl, rfl⟩
          · exact .error (.refl _)
          · simp only [outcome, Failure.not_startsWith_message]
            exact .error (.unsupportedShape hf)
      | scalar s => exact .ok (.intro _ _ (.scalar s))
      | record casing h => exact .ok (.intro _ _ (.record casing h))
      | list h => exact .ok (.intro _ _ (.list h))
      | map hkey hvalue => exact .ok (.intro _ _ (.map hkey hvalue))
      | pointer optional h => exact .ok (.intro _ _ (.pointer optional h))
      | enumeration h => exact .ok (.intro _ _ (.enumeration h))
      | dynamic => exact .ok (.intro _ _ .dynamic)

/-- The search for a declared type in a file that is not spelled as a directory has one outcome, up to
spelling. -/
theorem resolveDeclared_alike {file : FilePath} (hplain : file.saysDirectory = false) (name : String) :
    Asking.Alike files root (SameOutcome files (Descriptor.Alike files root)) (resolveDeclared file name)
      (resolveDeclared file name) := by
  refine (Asking.scopeOf_alike hplain).bind ?_
  intro answer answer' hanswer
  cases hanswer with
  | error hfailure => exact .pure (.error hfailure)
  | ok hscope =>
      -- Scopes that are alike declare the same names.
      dsimp only
      rw [← hscope.declares_eq]
      split
      next hname =>
        have hdeclaration := hscope.declaration hname
        exact Instantiation.build_alike ⟨hdeclaration, .nil⟩
      next => exact .pure (.error (.refl _))

/-- The search for a written type in a file that is not spelled as a directory has one outcome, up to
spelling. -/
theorem resolveExpression_alike {file : FilePath} (hplain : file.saysDirectory = false) (text : String) :
    Asking.Alike files root (SameOutcome files (Descriptor.Alike files root)) (resolveExpression file text)
      (resolveExpression file text) := by
  unfold resolveExpression
  split
  · exact .pure (.error (.refl _))
  · refine (Asking.scopeOf_alike hplain).bind ?_
    intro answer answer' hanswer
    cases hanswer with
    | error hfailure => exact .pure (.error hfailure)
    | ok hscope =>
        -- the type is walked over outside of any declaration, where no name is bound
        refine (FileScope.walk_alike hscope .nil _).bind ?_
        intro t t' ht
        refine (TypeRef.fetch_alike ht).bind ?_
        intro d d' hd
        exact .pure (outcome_alike hd)

end PayloadSchema
