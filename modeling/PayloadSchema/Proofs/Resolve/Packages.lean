import PayloadSchema.Proofs.Modules.Inverse
import PayloadSchema.Proofs.Resolve.Chains

/-!
# Imports inside a package

A file of a workspace member may import a type from another file of the member, by its path in the library
(`CrateImport`). On the way to the declaration the path is read for the library of the importing file, it
belongs to the project, it is not one of the standard libraries', and its module is located in the files that
the path gives. So a field of that type is resolved to the declaration, whatever the resolver was asked for
before.

Two kinds of members are cut off: those in a directory that has the name of a standard library, whose paths
are taken for paths into that library, and, as importing files, those below another directory `src`, which
are taken for files of another library.

* `Imports.find?_foldl_addLeaf` — what a name stands for after all imports of a file;
* `CrateImport.resolves` — a field of an imported type is resolved to its declaration;
* `CrateImport.not_resolves` — but not in a member that is named like a standard library.
-/

namespace PayloadSchema

/-! ## What imports bind -/

namespace Imports

variable {module : String} {children : List String} {leaf : Option String × List String}
  {name path : String}

/-- A leaf of another name does not change what stands for a name. -/
theorem find?_addLeaf_of_ne (imports : Imports) (h : leaf.1 ≠ some name) :
    (addLeaf module children imports leaf).find? name = imports.find? name := by
  unfold addLeaf
  split
  next => rfl
  next path name' _ hname =>
    exact Dictionary.find?_insert_of_ne _ _ fun heq => h (by rw [hname, heq])
  next => rfl

/-- A leaf stands for its name if its path can be resolved. -/
theorem find?_addLeaf_self (imports : Imports) (hname : leaf.1 = some name)
    (hpath : ModulePath.canonicalize? leaf.2 module children = some path) :
    (addLeaf module children imports leaf).find? name = some path := by
  unfold addLeaf
  rw [hpath, hname]
  exact Dictionary.find?_insert_self _ _ _

/-- A name stands for a path after some imports if all of them that bind the name mean that path, and there
is one or it stood for the path before. -/
theorem find?_foldl_addLeaf {leaves : List (Option String × List String)}
    (hall : ∀ leaf ∈ leaves, leaf.1 = some name →
      ModulePath.canonicalize? leaf.2 module children = some path)
    (imports : Imports) (h : imports.find? name = some path ∨ ∃ leaf ∈ leaves, leaf.1 = some name) :
    (leaves.foldl (addLeaf module children) imports).find? name = some path := by
  induction leaves generalizing imports with
  | nil =>
      rcases h with h | ⟨leaf, hleaf, -⟩
      · exact h
      · cases hleaf
  | cons leaf leaves ih =>
      refine ih (fun other hother => hall other (List.mem_cons_of_mem _ hother)) _ ?_
      -- A later leaf of the same name writes the same path, one of another name leaves it.
      by_cases hname : leaf.1 = some name
      · exact .inl (find?_addLeaf_self imports hname (hall leaf List.mem_cons_self hname))
      · rw [find?_addLeaf_of_ne imports hname]
        rcases h with h | ⟨other, hother, hbinds⟩
        · exact .inl h
        · rcases List.mem_cons.1 hother with rfl | hother
          · exact absurd hbinds hname
          · exact .inr ⟨other, hother, hbinds⟩

end Imports

/-! ## What a file says -/

namespace Source

/-- The leaves of the imports of a file, in order. -/
def SourceFile.leaves (source : SourceFile) : List (Option String × List String) :=
  (importsOf (surfaceAll source.items)).flatMap UseTree.leaves

/-- What one of the items shows at the surface, all of them show. -/
theorem surface_subset_surfaceAll {item : Item} {items : List Item} (h : item ∈ items) :
    item.surface ⊆ surfaceAll items := by
  induction items with
  | nil => cases h
  | cons first items ih =>
      rw [surfaceAll]
      rcases List.mem_cons.1 h with rfl | h
      · exact List.subset_append_left _ _
      · exact List.Subset.trans (ih h) (List.subset_append_right _ _)

/-- A declaration at the top level is at the surface. -/
theorem SourceFile.mem_surfaceAll {source : SourceFile} {name : String} {item : Item}
    (h : source.find? name = some item) :
    item ∈ surfaceAll source.items ∧ item.declared? = some name := by
  unfold find? at h
  have hdeclared : item.declared? = some name := by simpa using List.find?_some h
  refine ⟨surface_subset_surfaceAll (List.mem_of_find?_eq_some h) ?_, hdeclared⟩
  cases item with
  | value => cases hdeclared
  | _ => exact List.mem_singleton_self _

end Source

namespace FileScope

variable {root file : FilePath} {source : Source.SourceFile} {name path : String}

/-- A type that can be found in a file is declared in its scope. -/
theorem declares_of_find? {item : Source.Item} (h : source.find? name = some item) (root file : FilePath) :
    (ofSource root file source).declares name = true := by
  obtain ⟨hmem, hdeclared⟩ := Source.SourceFile.mem_surfaceAll h
  exact List.contains_iff_mem.2 (List.mem_eraseDups.2 (List.mem_filterMap.2 ⟨item, hmem, hdeclared⟩))

/-- What a name stands for in a file that imports it. -/
theorem find?_imports
    (hall : ∀ leaf ∈ source.leaves, leaf.1 = some name → ModulePath.canonicalize? leaf.2
      (ofSource root file source).modulePath (ofSource root file source).children = some path)
    (hsome : ∃ leaf ∈ source.leaves, leaf.1 = some name) :
    (ofSource root file source).imports.find? name = some path := by
  have himports : (ofSource root file source).imports =
      source.leaves.foldl (Imports.addLeaf (ofSource root file source).modulePath
        (ofSource root file source).children) {} := List.foldl_flatMap.symm
  rw [himports]
  exact Imports.find?_foldl_addLeaf hall {} (.inr hsome)

/-- There are as many arguments as types are written. -/
theorem length_walkAll (scope : FileScope) (bindings : Bindings) (types : List Source.TypeExpr) :
    (scope.walkAll bindings types).length = types.length := by
  induction types with
  | nil =>
      rw [walkAll]
      rfl
  | cons type types ih => rw [walkAll, List.length_cons, ih, List.length_cons]

/-- A single name that is imported from the library of the file means the declaration behind the path of the
import, whatever well-known type has that name. -/
theorem named_of_import {scope : FileScope} {bindings : Bindings} (hfree : bindings.lookup name = none)
    (hdeclares : scope.declares name = false) (himport : scope.imports.find? name = some path)
    (howns : scope.ownsPath path = true) (display : String) (arguments : List (Asking SourceType)) :
    scope.named bindings [name] display arguments = (do
      match ← Declaration.atPath path with
      | some declaration => return (Instantiation.mk declaration (← Asking.all arguments)).toType
      | none => return unresolvedType display) := by
  have hbound : bound? bindings [name] arguments = none := by
    unfold bound?
    split
    · exact hfree
    · rfl
  -- An import into the project is never a well-known name, so the walk goes on to the look-up.
  have hknown : scope.wellKnown? [name] arguments = pure none := by
    have howned : scope.owns [name] = true := by
      simp [owns, origin?, himport, howns]
    rw [wellKnown?]
    simp only [howned, if_true]
  have hlookup : scope.lookup [name] = Declaration.atPath path := by
    rw [lookup, if_neg (Bool.eq_false_iff.1 hdeclares), himport]
  rw [named, hbound, hknown, hlookup]
  rfl

end FileScope

/-! ## Members of a workspace -/

/-- A file of a workspace member that imports a type by its path in the library, and the file of the member
that declares it: the only one that the path of its module gives. -/
structure CrateImport (files : Files) (root : FilePath) where
  /-- The directory of the member. -/
  member : String
  file : FilePath
  /-- The path of the file below the sources of the member. -/
  inside : List String
  source : Source.SourceFile
  target : FilePath
  /-- The path of the declaring file below the sources of the member. -/
  targetInside : List String
  targetSource : Source.SourceFile
  name : String
  item : Source.Item
  member_plain : ':' ∉ member.toList
  name_plain : ':' ∉ name.toList
  file_parts : file.parts = root.parts ++ (["crates", member] ++ "src" :: inside).map .name
  target_parts : target.parts = root.parts ++ (["crates", member] ++ "src" :: targetInside).map .name
  file_source : Source.ofFile files file = .ok source
  target_source : Source.ofFile files target = .ok targetSource
  /-- The path of the declaring file's module gives files, and they are that one. -/
  found : Locating.exactFiles files root
    (Segments.join (Locating.normalized member :: ModulePath.modulesOf targetInside)) ≠ []
  only : ∀ p ∈ Locating.exactFiles files root
    (Segments.join (Locating.normalized member :: ModulePath.modulesOf targetInside)), p.same target = true
  declared : targetSource.find? name = some item
  not_declared : (FileScope.ofSource root file source).declares name = false
  imported : (some name, "crate" :: ModulePath.modulesOf targetInside ++ [name]) ∈ source.leaves
  only_import : ∀ leaf ∈ source.leaves, leaf.1 = some name →
    leaf.2 = "crate" :: ModulePath.modulesOf targetInside ++ [name]

namespace CrateImport

open ModulePath

variable {files : Files} {root : FilePath}

/-- The path of the declaring file's module, in the library that the member is. -/
def modulePath (c : CrateImport files root) : String :=
  Segments.join (Locating.normalized c.member :: modulesOf c.targetInside)

def path (c : CrateImport files root) : String := c.modulePath ++ "::" ++ c.name

/-- The scope of the importing file. -/
def scope (c : CrateImport files root) : FileScope := .ofSource root c.file c.source

variable (c : CrateImport files root)

/-- There is no colon in the name of the library. -/
theorem library_plain : ':' ∉ (Locating.normalized c.member).toList :=
  Locating.not_mem_normalized c.member_plain (by decide)

/-- The path that is imported is that of the library, of the modules and of the type. -/
theorem path_eq :
    c.path = Segments.join (Locating.normalized c.member :: (modulesOf c.targetInside ++ [c.name])) := by
  rw [path, modulePath, ← Segments.join_concat (List.cons_ne_nil _ _), List.cons_append]

/-- The module is the one that the declaring file holds, unless that lies below another `src`. -/
theorem modulePath_eq (h : "src" ∉ c.targetInside) : c.modulePath = ofFile root c.target :=
  (ofFile_eq h c.target_parts).symm

/-! ### The importing file -/

/-- The module of the importing file begins with the library of its package. -/
theorem scope_modulePath (h : "src" ∉ c.inside) :
    c.scope.modulePath = Segments.join (Locating.normalized c.member :: modulesOf c.inside) :=
  ofFile_eq h c.file_parts

/-- The import is read for the library of the importing file. -/
theorem find?_imports (h : "src" ∉ c.inside) : c.scope.imports.find? c.name = some c.path := by
  refine FileScope.find?_imports ?_ ⟨_, c.imported, rfl⟩
  intro leaf hleaf hname
  -- `crate` stands for the first segment of the importing file's own module path
  obtain ⟨more, hsplit⟩ := Segments.split_join_cons c.library_plain (modulesOf c.inside)
  rw [c.only_import leaf hleaf hname, c.path_eq]
  show canonicalize? ("crate" :: (modulesOf c.targetInside ++ [c.name])) c.scope.modulePath _ = _
  rw [c.scope_modulePath h, canonicalize?, hsplit]
  rfl

/-- The path of the type leads into the library of the importing file. -/
theorem ownsPath (h : "src" ∉ c.inside) : c.scope.ownsPath c.path = true := by
  obtain ⟨more, hpath⟩ := Segments.split_join_cons c.library_plain (modulesOf c.targetInside ++ [c.name])
  obtain ⟨more', hmodule⟩ := Segments.split_join_cons c.library_plain (modulesOf c.inside)
  rw [FileScope.ownsPath, c.path_eq, c.scope_modulePath h, hpath, hmodule]
  simp

/-! ### The declaring file -/

/-- What is located for the module is the declaring file. -/
theorem sameFile_of_mem {p : FilePath} (h : p ∈ Locating.exactFiles files root c.modulePath) :
    files.SameFile c.target p := by
  have htarget : files.isFile c.target = true :=
    Source.isFile_of_ofFile c.target_source (by simp)
  obtain ⟨⟨base, names⟩, -, hmem⟩ := List.mem_flatMap.1 h
  exact ⟨(beq_iff_eq.1 (c.only p h)).symm, htarget, Locating.isFile_of_mem_moduleFiles hmem⟩

/-- The path does not lead into a standard library. -/
theorem isExternal_eq (h : c.member ∉ standardLibraries) : isExternal c.modulePath = false :=
  isExternal_join c.library_plain (Locating.normalized_not_mem (by decide) h) _

/-- The files of the module are those that lie where it says, since its library is not a standard one. -/
theorem locate_eq (h : c.member ∉ standardLibraries) :
    (files.view root).locate c.modulePath = Locating.distinct (Locating.exactFiles files root c.modulePath) :=
  Locator.locate_of_exactFiles (c.isExternal_eq h) c.found

/-- A file of the module declares the type. -/
theorem exists_declares (h : c.member ∉ standardLibraries) : ∃ d, (files.view root).Declares c.path d := by
  -- one of the spellings that are found is kept
  obtain ⟨p, hp⟩ := List.exists_mem_of_ne_nil _ c.found
  obtain ⟨q, hq, -⟩ := Locating.exists_mem_distinct hp
  have hsame : files.SameFile c.target q := c.sameFile_of_mem (Locating.mem_of_mem_distinct hq)
  have hscope : (files.view root).scope q = .ok (FileScope.ofSource root q c.targetSource) := by
    show FileScope.ofFile files root q = _
    rw [FileScope.ofFile, Source.ofFile_eq_ok hsame c.target_source]
    rfl
  have hdeclares := FileScope.declares_of_find? c.declared root q
  refine ⟨_, c.name, _, ⟨c.modulePath, ?_, c.isExternal_eq h, q, ?_, hscope⟩, hdeclares, rfl⟩
  · exact Segments.cutLast?_append _ c.name_plain
  · rw [c.locate_eq h]
    exact hq

/-- A declaration is that of the type in the declaring file. -/
structure IsTarget (d : Declaration) : Prop where
  file : files.SameFile c.target d.file
  name : d.name = c.name
  modulePath : d.modulePath = ofFile root c.target

variable {c}

/-- The target is the same in every spelling of its file. -/
theorem IsTarget.of_alike {d d' : Declaration} (h : c.IsTarget d) (halike : d'.Alike files root d) :
    c.IsTarget d' where
  file := h.file.trans halike.file.symm
  name := halike.name.trans h.name
  modulePath := halike.modulePath_eq.trans h.modulePath

/-- What is declared under the path is the type in the declaring file. -/
theorem isTarget_of_declares (h : c.member ∉ standardLibraries) {d : Declaration}
    (hd : (files.view root).Declares c.path d) : c.IsTarget d := by
  obtain ⟨name, scope, ⟨modulePath, hcut, -, p, hp, hscope⟩, -, rfl⟩ := hd
  rw [path, Segments.cutLast?_append _ c.name_plain] at hcut
  cases hcut
  rw [c.locate_eq h] at hp
  have hsame := c.sameFile_of_mem (Locating.mem_of_mem_distinct hp)
  have hp : FileScope.ofFile files root p = .ok scope := hscope
  rw [FileScope.ofFile, Source.ofFile_eq_ok hsame c.target_source] at hp
  cases hp
  exact ⟨hsame, rfl, (ofFile_congr root hsame.parts).symm⟩

/-- Whatever is answered, the path leads to the declaration. -/
theorem isTarget_of_yields (h : c.member ∉ standardLibraries) {found : Option Declaration}
    (hfound : Asking.Yields files root (Declaration.atPath c.path) found) :
    ∃ d, found = some d ∧ c.IsTarget d := by
  obtain ⟨e, he⟩ := c.exists_declares h
  obtain ⟨d, hd⟩ := Option.isSome_iff_exists.1 (Declaration.isSome_within_of_leadsTo (he.leadsTo importHops))
  have hsame := Declaration.atPath_alike c.path _ _ hfound (Asking.yields_under files root _)
  rw [Declaration.atPath, hd] at hsame
  cases hsame with
  | some halike =>
      have htarget : c.IsTarget d := isTarget_of_declares h (Declaration.declares_of_within he hd)
      exact ⟨_, rfl, htarget.of_alike halike⟩

/-- The declaration is built from the item of the declaring file. -/
theorem build_under {i : Instantiation} (h : c.IsTarget i.declaration) :
    i.build.under (files.view root) =
      ((FileScope.ofSource root i.declaration.file c.targetSource).buildItem i c.item).under
        (files.view root) := by
  have hsource : (files.view root).source i.declaration.file = .ok c.targetSource :=
    Source.ofFile_eq_ok h.file c.target_source
  have hscope : (files.view root).scope i.declaration.file =
      .ok (.ofSource root i.declaration.file c.targetSource) := by
    show FileScope.ofFile files root i.declaration.file = _
    rw [FileScope.ofFile, Source.ofFile_eq_ok h.file c.target_source]
    rfl
  rw [Instantiation.build]
  simp only [Asking.under_bind, Asking.under_sourceOf, hsource, Asking.under_scopeOf, hscope, h.name,
    c.declared]

/-! ### Fields -/

/-- Whatever is answered, a path with just the name becomes a reference to the declaration. -/
theorem isTarget_of_yields_walk (hmember : c.member ∉ standardLibraries) (hinside : "src" ∉ c.inside)
    {bindings : Bindings} (hfree : bindings.lookup c.name = none) {leading : Bool}
    {segment : Source.Segment Source.TypeExpr} (hname : segment.name = c.name) {type : SourceType}
    (h : Asking.Yields files root (c.scope.walk bindings (.path false ⟨leading, [segment]⟩)) type) :
    ∃ i : Instantiation, type = i.toType ∧ c.IsTarget i.declaration ∧
      i.arguments.length = segment.types.length := by
  -- the name is imported from the library of the file, so that the path of the import counts
  have hdeclares : c.scope.declares c.name = false := c.not_declared
  rw [FileScope.walk, List.map_singleton, hname,
    FileScope.named_of_import hfree hdeclares (c.find?_imports hinside) (c.ownsPath hinside)] at h
  obtain ⟨found, hfound, h⟩ := Asking.yields_bind.1 h
  obtain ⟨d, rfl, hd⟩ := isTarget_of_yields hmember hfound
  obtain ⟨arguments, harguments, h⟩ := Asking.yields_bind.1 h
  have hlength : arguments.length = segment.types.length := by
    rw [← (Asking.yields_all harguments).length_eq, FileScope.walkLast, FileScope.length_walkAll]
  exact ⟨.mk d arguments, Asking.yields_pure.1 h, hd, hlength⟩

variable (c)

/-- The same import, with another spelling of the importing file. -/
def respell {p : FilePath} (h : files.SameFile c.file p) : CrateImport files root where
  __ := c
  file := p
  file_parts := h.parts.symm.trans c.file_parts
  file_source := Source.ofFile_eq_ok h c.file_source
  not_declared := c.not_declared

/-- What a resolver says of the importing file is its scope, under some spelling. -/
theorem scope_eq {r : Resolver} (h : r.Honest files root) :
    ∃ p, ∃ hsame : files.SameFile c.file p, (r.scope files c.file).1 = .ok (c.respell hsame).scope := by
  have hfile : files.isFile c.file = true := Source.isFile_of_ofFile c.file_source (by simp)
  rcases (h.scope c.file).1.of_isFile hfile with ⟨source, p, hsource, hsame, hscope⟩ | ⟨_, _, hfails, -⟩
  · rw [c.file_source] at hsource
    cases hsource
    exact ⟨p, hsame, hscope⟩
  · rw [c.file_source] at hfails
    cases hfails

/-- Fields of the imported type are resolved to its declaration: in any declaration of the file in which the
name is no parameter, whatever the resolver was asked for before, a field becomes a reference to the type in
the declaring file, with as many arguments as are written, and the reference stands for what is built from
the item that is declared there. -/
def Resolves : Prop :=
  ∀ (past : List Resolver.Request) (bindings : Bindings) (f : Source.FieldDecl) (leading : Bool)
    (segment : Source.Segment Source.TypeExpr), bindings.lookup c.name = none → segment.name = c.name →
    f.type = .path false ⟨leading, [segment]⟩ →
    let asked := ((Resolver.ofRoot root).after files past).scope files c.file
    ∃ (scope : FileScope) (i : Instantiation), asked.1 = .ok scope ∧
      (Resolver.answer files (scope.buildField bindings f) asked.2).1.type = i.toType ∧
      c.IsTarget i.declaration ∧ i.arguments.length = segment.types.length ∧
      i.build.under (files.view root) =
        ((FileScope.ofSource root i.declaration.file c.targetSource).buildItem i c.item).under
          (files.view root)

variable {c}

/-- **Imports inside a package.** In a member that is not named like a standard library, and in a file that
does not lie below another `src` of it, the fields of a type that is imported by its path in the library are
resolved to its declaration. -/
theorem resolves (hmember : c.member ∉ standardLibraries) (hinside : "src" ∉ c.inside) : c.Resolves := by
  intro past bindings f leading segment hfree hname htype asked
  have hpast : ((Resolver.ofRoot root).after files past).Honest files root :=
    (Resolver.honest_ofRoot files root).after past
  -- the file may have been read under another spelling before
  obtain ⟨p, hsame, hscope⟩ := c.scope_eq hpast
  have hasked : asked.2.Honest files root := (hpast.scope c.file).2
  have hyields := (hasked.answer ((c.respell hsame).scope.buildField bindings f)).1
  obtain ⟨type, hwalk, hfield⟩ := Asking.yields_bind.1 hyields
  rw [htype] at hwalk
  have hmember' : (c.respell hsame).member ∉ standardLibraries := hmember
  obtain ⟨i, htoType, hi, hlength⟩ := isTarget_of_yields_walk hmember' hinside hfree hname hwalk
  have htarget : c.IsTarget i.declaration := ⟨hi.file, hi.name, hi.modulePath⟩
  refine ⟨_, i, hscope, ?_, htarget, hlength, build_under htarget⟩
  rw [Asking.yields_pure.1 hfield]
  exact htoType

end CrateImport

/-! ## One import in two members -/

/-- What a file with a text reads as. -/
theorem Source.ofFile_of_text? {files : Files} {file : FilePath} {text : String} {source : SourceFile}
    (htext : files.text? file = some text) (hsource : SourceFile.ofText? text = some source) :
    ofFile files file = .ok source := by
  obtain ⟨content, hcontent, htext⟩ := Option.bind_eq_some_iff.1 htext
  unfold ofFile
  rw [hcontent]
  dsimp only
  rw [content.source_eq, htext, Option.bind_some, hsource]

namespace Workspace

open Source (SourceFile)

def library : SourceFile := (SourceFile.ofText? libraryText).get (by decide +kernel)

/-- The module that it imports a type from. -/
def billingSource : SourceFile := (SourceFile.ofText? billingText).get (by decide +kernel)

theorem library_leaves : library.leaves = [(some "Money", ["crate", "billing", "Money"])] := by
  decide +kernel

/-- The import in a member of the workspace. -/
def moneyOf (member : String) (h : member = "core" ∨ member = "shared-types") :
    CrateImport files home where
  member
  file := ⟨"work/crates/" ++ member ++ "/src/lib.rs"⟩
  inside := ["lib.rs"]
  source := library
  target := ⟨"work/crates/" ++ member ++ "/src/billing/mod.rs"⟩
  targetInside := ["billing", "mod.rs"]
  targetSource := billingSource
  name := "Money"
  item := (billingSource.find? "Money").get (by decide +kernel)
  member_plain := by rcases h with rfl | rfl <;> decide
  name_plain := by decide
  file_parts := by rcases h with rfl | rfl <;> decide +kernel
  target_parts := by rcases h with rfl | rfl <;> decide +kernel
  file_source := by
    refine Source.ofFile_of_text? ?_ (Option.some_get _).symm
    rcases h with rfl | rfl <;> decide +kernel
  target_source := by
    refine Source.ofFile_of_text? ?_ (Option.some_get _).symm
    rcases h with rfl | rfl <;> decide +kernel
  found := by rcases h with rfl | rfl <;> decide +kernel
  only := by rcases h with rfl | rfl <;> decide +kernel
  declared := (Option.some_get _).symm
  not_declared := by
    have hdeclared : (Source.surfaceAll library.items).filterMap (·.declared?) = ["Order"] := by
      decide +kernel
    unfold FileScope.declares FileScope.ofSource
    dsimp only
    rw [hdeclared]
    decide +kernel
  imported := by
    rw [library_leaves]
    decide +kernel
  only_import := by
    rw [library_leaves]
    decide +kernel

/-- The field of the imported type. -/
def total : Source.FieldDecl where
  attributes := []
  name := "total"
  type := .path false ⟨false, [{ name := "Money" }]⟩

end Workspace

namespace CrateImport

open ModulePath Workspace

/-- In a member with a hyphen in its name the field is a reference to the type in the module, also if the file
was read under another spelling before. -/
theorem resolves_sharedTypes :
    let c := moneyOf "shared-types" (.inr rfl)
    let past : List Resolver.Request :=
      [.locate "shared_types", .scope ⟨"work/./crates/shared-types/src/lib.rs"⟩]
    let asked := ((Resolver.ofRoot home).after files past).scope files c.file
    c.member ∉ standardLibraries ∧ "src" ∉ c.inside ∧ c.Resolves ∧
      ∃ (scope : FileScope) (i : Instantiation), asked.1 = .ok scope ∧
        (Resolver.answer files (scope.buildField [] total) asked.2).1.type = i.toType ∧
        i.identity = "shared_types::billing::Money" := by
  intro c past asked
  have hmember : c.member ∉ standardLibraries := by
    show "shared-types" ∉ standardLibraries
    decide
  have hinside : "src" ∉ c.inside := by
    show "src" ∉ ["lib.rs"]
    decide
  have htarget : "src" ∉ c.targetInside := by
    show "src" ∉ ["billing", "mod.rs"]
    decide
  have hresolves : c.Resolves := resolves hmember hinside
  obtain ⟨scope, ⟨d, arguments⟩, hscope, htype, hd, hlength, -⟩ :=
    hresolves past [] total false { name := "Money" } rfl rfl rfl
  refine ⟨hmember, hinside, hresolves, scope, _, hscope, htype, ?_⟩
  have hd : c.IsTarget d := hd
  -- A hyphen in the member's name is written as an underscore in its module path.
  have hmodule : d.modulePath = "shared_types::billing" := by
    rw [hd.modulePath, ← c.modulePath_eq htarget]
    show Segments.join (Locating.normalized "shared-types" :: modulesOf ["billing", "mod.rs"]) = _
    decide +kernel
  have hname : d.name = "Money" := hd.name
  have harguments : arguments = [] := List.eq_nil_of_length_eq_zero hlength
  rw [harguments, Instantiation.identity]
  show d.modulePath ++ "::" ++ d.name = _
  rw [hmodule, hname]
  decide

/-- In a member that is named like a standard library the type is not found. -/
theorem not_resolves :
    ¬ ∀ (files : Files) (root : FilePath) (c : CrateImport files root),
      ('-' ∉ c.member.toList ∨ '_' ∉ c.member.toList) → c.Resolves := by
  intro hall
  have hcore : (moneyOf "core" (.inl rfl)).Resolves := hall files home _ (.inl (by decide))
  let asked := ((Resolver.ofRoot home).after files []).scope files (moneyOf "core" (.inl rfl)).file
  obtain ⟨scope, i, hscope, htype, -⟩ := hcore [] [] total false { name := "Money" } rfl rfl rfl
  have hscope : asked.1 = .ok scope := hscope
  -- there is nothing to load behind the type of the field
  have hnothing : (asked.1.toOption.all fun scope =>
      (Resolver.answer files (scope.buildField [] total) asked.2).1.type.loads.isEmpty) = true := by
    decide +kernel
  rw [hscope] at hnothing
  have hnone : (Resolver.answer files (scope.buildField [] total) asked.2).1.type.loads.isEmpty = true :=
    hnothing
  rw [htype] at hnone
  cases hnone

end CrateImport

end PayloadSchema
