import PayloadSchema.Proofs.Resolve.Packages

/-!
# The surface of a file and its top level

The scope of a file is taken from its surface, and a declaration is built from the top level. The two differ
by what is in the blocks of constants and of the values of attributes (`SourceFile.hidden`): a type that is
declared in such a block is found under its name, but nothing can be built from it. In a file with nothing but
functions and the like in these blocks the scope is the top level (`FileScope.IsTopLevel`).

* `FileScope.ofSource_surface` — what a scope says, and which declarations that are found can be built;
* `FileScope.not_isTopLevel` — a type in the block of a constant is found, but it is not at the top level.
-/

namespace PayloadSchema

namespace Source

/-- The items in the blocks of a constant, of a macro call and of the values of their attributes. -/
def Item.hidden : Item → List Item
  | .value inner => surfaceAll inner
  | _ => []

/-- The items in the blocks of a file: of its constants, and of the values of its own attributes and of
theirs. -/
def SourceFile.hidden (source : SourceFile) : List Item := source.items.flatMap Item.hidden

/-- Whether nothing asks for the inside of an item, nor for its name. -/
def Item.isClosed : Item → Bool
  | .closed => true
  | _ => false

/-- A closed item is closed and nothing else. -/
theorem Item.eq_closed {item : Item} (h : item.isClosed = true) : item = .closed := by
  cases item with
  | closed => rfl
  | _ => cases h

/-- At the surface are the items of the top level that stand for no block, and those in the blocks. -/
theorem mem_surfaceAll_iff {items : List Item} {item : Item} :
    item ∈ surfaceAll items ↔
      (item ∈ items ∧ ∀ inner, item ≠ .value inner) ∨ item ∈ items.flatMap Item.hidden := by
  -- Only a value is replaced by the items hidden in it; every other item stands for itself.
  have hsurface (first : Item) :
      item ∈ first.surface ↔ (item = first ∧ ∀ inner, item ≠ .value inner) ∨ item ∈ first.hidden := by
    cases first with
    | value inner =>
        have hno : ¬ (item = .value inner ∧ ∀ inner, item ≠ .value inner) := by
          rintro ⟨heq, hne⟩
          exact hne inner heq
        simp only [Item.surface, Item.hidden, hno, false_or]
    | _ =>
        simp only [Item.surface, Item.hidden, List.mem_singleton, List.not_mem_nil, or_false]
        constructor
        · rintro rfl
          exact ⟨rfl, fun inner heq => by cases heq⟩
        · rintro ⟨rfl, -⟩
          rfl
  induction items with
  | nil => simp [surfaceAll]
  | cons first items ih =>
      rw [surfaceAll, List.mem_append, hsurface, List.flatMap_cons, List.mem_append, List.mem_cons,
        or_and_right]
      exact (or_congr Iff.rfl ih).trans or_or_or_comm

/-- A name is found at the top level if and only if a declaration there has it. -/
theorem SourceFile.isSome_find?_iff {source : SourceFile} {name : String} :
    (source.find? name).isSome = true ↔ ∃ item ∈ source.items, item.declared? = some name := by
  unfold find?
  rw [List.find?_isSome]
  simp only [beq_iff_eq]

/-- A name is declared at the surface if and only if it is at the top level or in a block. -/
theorem SourceFile.exists_declared_iff {source : SourceFile} {name : String} :
    (∃ item ∈ surfaceAll source.items, item.declared? = some name) ↔
      (source.find? name).isSome = true ∨ ∃ item ∈ source.hidden, item.declared? = some name := by
  rw [isSome_find?_iff]
  constructor
  · rintro ⟨item, hmem, hname⟩
    rcases mem_surfaceAll_iff.1 hmem with ⟨hmem, -⟩ | hmem
    · exact .inl ⟨item, hmem, hname⟩
    · exact .inr ⟨item, hmem, hname⟩
  · rintro (⟨item, hmem, hname⟩ | ⟨item, hmem, hname⟩)
    · refine ⟨item, mem_surfaceAll_iff.2 (.inl ⟨hmem, ?_⟩), hname⟩
      rintro inner rfl
      cases hname
    · exact ⟨item, mem_surfaceAll_iff.2 (.inr hmem), hname⟩

/-- A module is at the surface if and only if it is at the top level or in a block. -/
theorem SourceFile.mem_modulesOf_iff {source : SourceFile} {name : String} :
    name ∈ modulesOf (surfaceAll source.items) ↔
      Item.module name ∈ source.items ∨ Item.module name ∈ source.hidden := by
  have hmodule (items : List Item) : name ∈ modulesOf items ↔ Item.module name ∈ items := by
    unfold modulesOf
    rw [List.mem_filterMap]
    constructor
    · rintro ⟨item, hmem, hname⟩
      split at hname
      · cases hname
        exact hmem
      · cases hname
    · intro hmem
      exact ⟨_, hmem, rfl⟩
  -- A module is not a value, so the second condition is met.
  rw [hmodule, mem_surfaceAll_iff]
  simp [SourceFile.hidden]

/-- Blocks without declarations, imports and modules leave the imports those of the top level. -/
theorem importsOf_surfaceAll {items : List Item} (h : ∀ item ∈ items.flatMap Item.hidden, item.isClosed = true) :
    importsOf (surfaceAll items) = importsOf items := by
  induction items with
  | nil => rfl
  | cons first items ih =>
      rw [List.flatMap_cons] at h
      have hrest := ih fun item hitem => h item (List.mem_append_right _ hitem)
      -- A closed item imports nothing, and only values are replaced.
      have hfirst : importsOf first.surface = importsOf [first] := by
        cases first with
        | value inner =>
            refine List.filterMap_eq_nil_iff.2 ?_
            intro item hitem
            rw [Item.eq_closed (h item (List.mem_append_left _ hitem))]
        | _ => rfl
      have hsplit (left right : List Item) : importsOf (left ++ right) = importsOf left ++ importsOf right :=
        List.filterMap_append
      rw [surfaceAll, hsplit, hfirst, hrest, ← hsplit, List.singleton_append]

end Source

namespace FileScope

open Source (SourceFile)

/-- What a scope says is what the top level of the file says. -/
structure IsTopLevel (scope : FileScope) (source : SourceFile) : Prop where
  declares_iff : ∀ name, scope.declares name = true ↔ (source.find? name).isSome = true
  children_iff : ∀ name, name ∈ scope.children ↔ Source.Item.module name ∈ source.items
  imports_eq : scope.imports = (Source.importsOf source.items).foldl
    (fun imports tree => imports.add tree scope.modulePath scope.children) {}

section

variable (root path : FilePath) (source : SourceFile)

/-- A scope declares what the file does, and what is hidden in it. -/
theorem declares_ofSource_iff (name : String) :
    (ofSource root path source).declares name = true ↔
      (source.find? name).isSome = true ∨ ∃ item ∈ source.hidden, item.declared? = some name := by
  rw [← SourceFile.exists_declared_iff, declares, List.contains_iff_mem]
  exact List.mem_eraseDups.trans List.mem_filterMap

/-- The inner modules of a scope are those of the file, and those hidden in it. -/
theorem children_ofSource_iff (name : String) :
    name ∈ (ofSource root path source).children ↔
      Source.Item.module name ∈ source.items ∨ Source.Item.module name ∈ source.hidden := by
  rw [← SourceFile.mem_modulesOf_iff]
  exact List.mem_eraseDups

variable {source}

/-- A scope is that of the top level if all that is hidden in the file is closed. -/
theorem isTopLevel_ofSource (h : ∀ item ∈ source.hidden, item.isClosed = true) :
    (ofSource root path source).IsTopLevel source where
  declares_iff name := by
    rw [declares_ofSource_iff, or_iff_left]
    rintro ⟨item, hitem, hname⟩
    rw [Source.Item.eq_closed (h item hitem)] at hname
    cases hname
  children_iff name := by
    rw [children_ofSource_iff, or_iff_left]
    intro hitem
    cases h _ hitem
  imports_eq := by
    rw [← Source.importsOf_surfaceAll h]
    rfl

end

/-! ## Building what is found -/

variable {files : Files} {root : FilePath}

/-- A declared data type is built without a failure. -/
theorem exists_ok_of_yields_buildItem {scope : FileScope} {i : Instantiation} {item : Source.Item}
    {name : String} (hname : item.declared? = some name) {built : Except Failure (Descriptor SourceType)}
    (h : Asking.Yields files root (scope.buildItem i item) built) : ∃ d, built = .ok d := by
  cases item with
  | struct decl | enum decl | typeAlias decl =>
      obtain ⟨d, -, hd⟩ := Asking.yields_map.1 h
      exact ⟨d, hd⟩
  | use | module | value | closed => cases hname

/-- A declaration that the scope of its file has is built from the item that has its name at the top level,
and there is a failure if none has. -/
theorem isOk_of_yields_build {d : Declaration} {source : SourceFile}
    (hsource : Source.ofFile files d.file = .ok source) (arguments : List SourceType)
    {built : Except Failure (Descriptor SourceType)}
    (h : Asking.Yields files root (Instantiation.mk d arguments).build built) :
    if (source.find? d.name).isSome then ∃ descriptor, built = .ok descriptor
    else built = .error (.notDeclared d.file d.name) := by
  have hfile : files.isFile d.file = true := Source.isFile_of_ofFile hsource (by simp)
  obtain ⟨read, hread, h⟩ := Asking.yields_bind.1 h
  cases hread with
  | read hread =>
  rw [Asking.yields_pure.1 hread, Instantiation.declaration, hsource] at h
  obtain ⟨asked, hasked, h⟩ := Asking.yields_bind.1 h
  cases hasked with
  | scope hanswer hasked =>
  rw [Asking.yields_pure.1 hasked] at h
  -- the file can be read, so that there is a scope
  rcases hanswer.of_isFile hfile with ⟨_, path, -, -, rfl⟩ | ⟨_, _, hfails, -⟩
  · cases hfind : source.find? d.name with
    | none =>
        simp only [hfind] at h
        exact Asking.yields_pure.1 h
    | some item =>
        simp only [hfind] at h
        obtain ⟨-, hdeclared⟩ := SourceFile.mem_surfaceAll hfind
        exact exists_ok_of_yields_buildItem hdeclared h
  · rw [hsource] at hfails
    cases hfails

/-- What is found for names that are written in a file of the workspace is declared in its file. -/
theorem isDeclared_of_yields_lookup {asking : FilePath} {text : SourceFile}
    (htext : Source.ofFile files asking = .ok text) {names : List String} {d : Declaration}
    (h : Asking.Yields files root ((ofSource root asking text).lookup names) (some d)) :
    d.IsDeclared files root := by
  have hfile : files.isFile asking = true := Source.isFile_of_ofFile htext (by simp)
  have hsame := lookup_alike (.intro (.refl hfile) htext htext) names _ _ h h
  cases hsame with
  | some halike => exact halike.left

variable (root) in
/-- **Scopes and the top level.** For a source file that can be read: its scope declares the data types of
the top level and those in the blocks of constants and attributes; likewise for the modules, and the imports
are those of the surface in order. If nothing but functions and the like is in these blocks, the scope is the
top level. Whatever the resolver was asked for before, a declaration of the file that is found for names in
some file of the workspace can be built if the top level has its name, and else there is a failure that says
that it is not declared. -/
theorem ofSource_surface {path : FilePath} {source : SourceFile}
    (hsource : Source.ofFile files path = .ok source) :
    let scope := ofSource root path source
    ofFile files root path = .ok scope ∧
    (∀ name, scope.declares name = true ↔
      (source.find? name).isSome = true ∨ ∃ item ∈ source.hidden, item.declared? = some name) ∧
    (∀ name, name ∈ scope.children ↔
      Source.Item.module name ∈ source.items ∨ Source.Item.module name ∈ source.hidden) ∧
    scope.imports = (Source.importsOf (Source.surfaceAll source.items)).foldl
      (fun imports tree => imports.add tree scope.modulePath scope.children) {} ∧
    ((∀ item ∈ source.hidden, item.isClosed = true) → scope.IsTopLevel source) ∧
    ∀ (past : List Resolver.Request) (asking : FilePath) (text : SourceFile) (names : List String)
      (d : Declaration) (arguments : List SourceType),
      Source.ofFile files asking = .ok text →
      let looked := Resolver.answer files ((ofSource root asking text).lookup names)
        ((Resolver.ofRoot root).after files past)
      looked.1 = some d → d.file = path →
      let built := (Resolver.answer files (Instantiation.mk d arguments).build looked.2).1
      scope.declares d.name = true ∧
        if (source.find? d.name).isSome then ∃ descriptor, built = .ok descriptor
        else built = .error (.notDeclared path d.name) := by
  intro scope
  refine ⟨?_, declares_ofSource_iff root path source, children_ofSource_iff root path source, rfl,
    isTopLevel_ofSource root path, ?_⟩
  · rw [ofFile, hsource]
    rfl
  · intro past asking text names d arguments htext looked hfound hpath built
    subst hpath
    have hpast := (Resolver.honest_ofRoot files root).after past
    have hlooked := hpast.answer ((ofSource root asking text).lookup names)
    -- The look-up is one of those a memory with any past may give.
    have hyields : Asking.Yields files root ((ofSource root asking text).lookup names) (some d) := by
      rw [← hfound]
      exact hlooked.1
    obtain ⟨source', hsource', hdeclares, -⟩ := isDeclared_of_yields_lookup htext hyields
    rw [hsource] at hsource'
    cases hsource'
    have hbuilt := (hlooked.2.answer (Instantiation.mk d arguments).build).1
    exact ⟨hdeclares, isOk_of_yields_build hsource arguments hbuilt⟩

end FileScope

namespace Surface

/-- A library with a constant in whose block a function is declared. -/
def files : Files := .ofSources
  [("lib.rs", "mod models; use models::User; const LIMIT: u8 = { fn inner() {} 1 }; struct Top { owner: User }"),
    ("models.rs", "struct User { id: u64 }")]

/-- A library with a constant in whose block a type is declared. -/
def nested : Files := .ofSources [("lib.rs", "const LIMIT: u8 = { struct Hidden { id: u64 } 1 };")]

def home : FilePath := ⟨""⟩

def libraryPath : FilePath := ⟨"src/lib.rs"⟩

def library : Source.SourceFile := (Source.ofFile files libraryPath).toOption.get (by decide +kernel)

/-- What the library with a type in a block reads as. -/
def nestedLibrary : Source.SourceFile := (Source.ofFile nested libraryPath).toOption.get (by decide +kernel)

theorem eq_ok_get {ε α : Type} {outcome : Except ε α} (h : outcome.toOption.isSome = true) :
    outcome = .ok (outcome.toOption.get h) := by
  cases outcome with
  | ok a => rfl
  | error e => cases h

theorem ofFile_library : Source.ofFile files libraryPath = .ok library :=
  eq_ok_get _

theorem ofFile_nestedLibrary : Source.ofFile nested libraryPath = .ok nestedLibrary :=
  eq_ok_get _

end Surface

namespace FileScope

open Surface

/-- In a library with a function in the block of a constant, the scope is the top level, and the structure
next to it is found and built. -/
theorem ofSource_surface_top :
    Source.ofFile files libraryPath = .ok library ∧ library.hidden.length = 1 ∧
      (ofSource home libraryPath library).IsTopLevel library ∧
      let looked := Resolver.answer files ((ofSource home libraryPath library).lookup ["Top"]) (.ofRoot home)
      let top : Declaration := ⟨libraryPath, "crate", "Top"⟩
      looked.1 = some top ∧
        ∃ descriptor, (Resolver.answer files (Instantiation.mk top []).build looked.2).1 = .ok descriptor := by
  obtain ⟨-, -, -, -, htop, hbuilt⟩ := ofSource_surface home ofFile_library
  have hlooked : (Resolver.answer files ((ofSource home libraryPath library).lookup ["Top"])
      (.ofRoot home)).1 = some ⟨libraryPath, "crate", "Top"⟩ := by
    decide +kernel
  have hfind : (library.find? "Top").isSome = true := by decide +kernel
  obtain ⟨-, hbuilt⟩ := hbuilt [] libraryPath library ["Top"] _ [] ofFile_library hlooked rfl
  -- The item stands at the top, so it is found again when it is built.
  rw [if_pos hfind] at hbuilt
  exact ⟨ofFile_library, by decide +kernel, htop (by decide +kernel), hlooked, hbuilt⟩

/-- The scope of a file is not always its top level: a type that is declared in the block of a constant is
in it. -/
theorem not_isTopLevel :
    ¬ ∀ (files : Files) (root path : FilePath) (source : Source.SourceFile),
      Source.ofFile files path = .ok source → (ofSource root path source).IsTopLevel source := by
  intro hall
  have htop := hall nested home libraryPath nestedLibrary ofFile_nestedLibrary
  have hdeclares : (ofSource home libraryPath nestedLibrary).declares "Hidden" = true := by decide +kernel
  have hfind : (nestedLibrary.find? "Hidden").isSome = true := (htop.declares_iff "Hidden").1 hdeclares
  revert hfind
  decide +kernel

end FileScope

end PayloadSchema
