import PayloadSchema.Proofs.Modules.Imports
import PayloadSchema.Proofs.Modules.Relative
import PayloadSchema.Proofs.Resolve.Packages
import PayloadSchema.Proofs.Resolve.Renaming

/-!
# Renaming an import

A file imports a type under its name. In another version of the file the import gives it a new name, which
stands at the beginning of paths in place of the old one (`RenamedImport`). The two versions say the same of
every other name, and what the one says of the old name the other says of the new one. A search in the
workspace sees a difference only where it looks for one of the two names in the file itself
(`RenamedImport.Passes`).

* `RenamedImport.find?_eq`, `RenamedImport.find?_of_canonicalize?` — what names stand for in the two versions;
* `RenamedImport.Between.look_eq` — what one path leads to;
* `RenamedImport.meaning_rename` — what names mean in the two versions.
-/

namespace PayloadSchema

open Source (Item Leaf SourceFile TypeExpr UseTree renameHead importsOf modulesOf surfaceAll)

namespace Imports

variable {module : String} {children : List String} {name : String}

/-- Leaves that do not bind a name leave what it stands for. -/
theorem find?_foldl_addLeaf_of_ne {leaves : List (Option String × List String)}
    (h : ∀ leaf ∈ leaves, leaf.1 ≠ some name) (imports : Imports) :
    (leaves.foldl (addLeaf module children) imports).find? name = imports.find? name := by
  induction leaves generalizing imports with
  | nil => rfl
  | cons leaf leaves ih =>
      obtain ⟨hleaf, hleaves⟩ := List.forall_mem_cons.1 h
      rw [List.foldl_cons, ih hleaves, find?_addLeaf_of_ne imports hleaf]

/-- What stands for a name after some leaves depends only on what stood for it before. -/
theorem find?_foldl_addLeaf_congr {imports imports' : Imports}
    (h : imports.find? name = imports'.find? name) (leaves : List (Option String × List String)) :
    (leaves.foldl (addLeaf module children) imports).find? name =
      (leaves.foldl (addLeaf module children) imports').find? name := by
  rw [find?_foldl_addLeaf_eq, find?_foldl_addLeaf_eq, h]

end Imports

/-- Only whether a name comes from the library of JSON values counts for what it is well-known as. -/
theorem WellKnown.ofName?_congr (name : String) {origin origin' : Option String}
    (h : origin.any (·.startsWith jsonLibrary) = origin'.any (·.startsWith jsonLibrary)) :
    ofName? name origin = ofName? name origin' := by
  unfold ofName?
  rw [h]

/-- A path that begins with a word and a separator has the word as its first name. -/
theorem Segments.eq_of_startsWith_join (word : String) {first : String} {rest : List String} (hword : ':' ∉ word.toList)
    (hfirst : ':' ∉ first.toList) (hrest : rest ≠ [])
    (h : (join (first :: rest)).startsWith (word ++ "::") = true) : first = word := by
  -- up to the first colon there is the word, and there is the first name
  have hname {text : String} (htext : ':' ∉ text.toList) (more : List Char) :
      (text.toList ++ ':' :: more).takeWhile (· ≠ ':') = text.toList := by
    rw [List.takeWhile_append_of_pos, List.takeWhile_cons_of_neg, List.append_nil]
    · simp
    · intro c hc
      simpa using fun heq : c = ':' => htext (heq ▸ hc)
  rw [join_cons first hrest, String.startsWith_string_iff] at h
  obtain ⟨more, hmore⟩ := h
  have hcut := congrArg (List.takeWhile (· ≠ ':')) hmore
  simp only [String.toList_append, show "::".toList = [':', ':'] from rfl, List.append_assoc,
    List.cons_append, List.nil_append] at hcut
  rw [hname hword, hname hfirst] at hcut
  exact (String.toList_injective hcut).symm

/-! ## Two versions of a file -/

/-- The leaves of the imports among items, in order. -/
def Source.leavesOf (items : List Item) : List (Option String × List String) :=
  (importsOf (surfaceAll items)).flatMap UseTree.leaves

/-- A source file with an import of a name, and a new name that the file does not use. No other import binds
one of the two, no data type of the file has one of them, and none is a type parameter. -/
structure RenamedImport where
  before : List Item
  after : List Item
  /-- The path of the import before its name. -/
  way : List String
  name : String
  newName : String
  plain : ModulePath.IsPlain name
  newPlain : ModulePath.IsPlain newName
  ne : newName ≠ name
  proper : ∀ word ∈ ["Self", "_", "serde_json"], name ≠ word ∧ newName ≠ word
  only : ∀ leaf ∈ Source.leavesOf (before ++ after), leaf.1 ≠ some name ∧ leaf.1 ≠ some newName
  undeclared : ∀ item ∈ surfaceAll (before ++ after),
    item.declared? ≠ some name ∧ item.declared? ≠ some newName
  unbound : ∀ item ∈ before ++ after, name ∉ item.parameters ∧ newName ∉ item.parameters
  unused : ∀ item ∈ before ++ after, ∀ type ∈ item.types, ∀ names ∈ type.paths, names.head? ≠ some newName

namespace RenamedImport

variable (c : RenamedImport) (root file : FilePath)

/-- The new name in the place of the old one. -/
def replace (name : String) : String := if name = c.name then c.newName else name

def source : SourceFile :=
  ⟨c.before ++ .use (Leaf.tree ⟨c.way, .name c.name⟩) :: c.after⟩

def renamed : SourceFile :=
  ⟨c.before.map (Item.rename c.replace) ++ .use (Leaf.tree ⟨c.way, .rename c.name c.newName⟩) ::
    c.after.map (Item.rename c.replace)⟩

abbrev scope : FileScope := .ofSource root file c.source

/-- What the file says with the new name. -/
abbrev renamedScope : FileScope := .ofSource root file c.renamed

variable {c}

/-- The two names are none of the words that have a meaning of their own. -/
theorem name_ne {word : String} (h : word ∈ ModulePath.startWords ++ ["Self", "_", "serde_json"]) :
    c.name ≠ word ∧ c.newName ≠ word := by
  rcases List.mem_append.1 h with h | h
  · exact ⟨c.plain.ne h, c.newPlain.ne h⟩
  · exact c.proper word h

theorem replace_of_ne {name : String} (h : name ≠ c.name) : c.replace name = name := if_neg h

theorem replace_name : c.replace c.name = c.newName := if_pos rfl

/-! ### Surfaces -/

/-- The items of the file, with the leaf in its place. -/
theorem surfaceAll_source :
    surfaceAll c.source.items =
      surfaceAll c.before ++ .use (Leaf.tree ⟨c.way, .name c.name⟩) :: surfaceAll c.after := by
  rw [source, Source.surfaceAll_append, surfaceAll]
  rfl

/-- The items of the rewritten file: renamed on both sides of the leaf. -/
theorem surfaceAll_renamed :
    surfaceAll c.renamed.items =
      (surfaceAll c.before).map (Item.rename c.replace) ++
        .use (Leaf.tree ⟨c.way, .rename c.name c.newName⟩) ::
          (surfaceAll c.after).map (Item.rename c.replace) := by
  rw [renamed, Source.surfaceAll_append, surfaceAll, Source.surfaceAll_rename, Source.surfaceAll_rename]
  rfl

/-- The leaves of the file, with the one in question in its place. -/
theorem leaves_source :
    c.source.leaves = Source.leavesOf c.before ++ (some c.name, c.way ++ [c.name]) :: Source.leavesOf c.after := by
  have hleaf : (Leaf.tree ⟨c.way, .name c.name⟩).leaves = [(some c.name, c.way ++ [c.name])] := by
    have hself : c.name ≠ "self" := (name_ne (by decide)).1
    rw [UseTree.leaves, Leaf.leavesBelow_tree, List.nil_append]
    exact if_neg hself
  unfold SourceFile.leaves Source.leavesOf importsOf
  rw [surfaceAll_source, List.filterMap_append, List.filterMap_cons, List.flatMap_append, List.flatMap_cons,
    hleaf]
  rfl

/-- The leaves of the rewritten file are the same but for the one. -/
theorem leaves_renamed :
    c.renamed.leaves =
      Source.leavesOf c.before ++ (some c.newName, c.way ++ [c.name]) :: Source.leavesOf c.after := by
  -- Neither name is a word with a meaning of its own in a use tree.
  have hleaf : (Leaf.tree ⟨c.way, .rename c.name c.newName⟩).leaves = [(some c.newName, c.way ++ [c.name])] := by
    have hself : c.name ≠ "self" := (name_ne (by decide)).1
    have hblank : c.newName ≠ "_" := (name_ne (by decide)).2
    rw [UseTree.leaves, Leaf.leavesBelow_tree, List.nil_append, Source.Ending.tree, UseTree.leavesBelow,
      if_neg hblank, if_neg hself]
  have himports (items : List Item) :
      importsOf ((surfaceAll items).map (Item.rename c.replace)) = importsOf (surfaceAll items) :=
    Source.importsOf_rename _ _
  unfold SourceFile.leaves Source.leavesOf
  unfold importsOf at himports ⊢
  rw [surfaceAll_renamed, List.filterMap_append, List.filterMap_cons, himports, himports,
    List.flatMap_append, List.flatMap_cons, hleaf]
  rfl

/-! ### Scopes -/

/-- The rewritten file has the same inner modules. -/
theorem children_eq : (c.renamedScope root file).children = (c.scope root file).children := by
  have hmodules : modulesOf (surfaceAll c.renamed.items) = modulesOf (surfaceAll c.source.items) := by
    have hrename (items : List Item) :
        modulesOf ((surfaceAll items).map (Item.rename c.replace)) = modulesOf (surfaceAll items) :=
      Source.modulesOf_rename _ _
    unfold modulesOf at hrename ⊢
    rw [surfaceAll_renamed, surfaceAll_source, List.filterMap_append, List.filterMap_append,
      List.filterMap_cons, List.filterMap_cons, hrename, hrename]
  exact congrArg List.eraseDups hmodules

/-- The rewritten file declares the same names. -/
theorem declared_eq : (c.renamedScope root file).declared = (c.scope root file).declared := by
  have hdeclared : (surfaceAll c.renamed.items).filterMap (·.declared?) =
      (surfaceAll c.source.items).filterMap (·.declared?) := by
    rw [surfaceAll_renamed, surfaceAll_source, List.filterMap_append, List.filterMap_append,
      List.filterMap_cons, List.filterMap_cons, Source.filterMap_declared?_rename,
      Source.filterMap_declared?_rename]
    rfl
  exact congrArg List.eraseDups hdeclared

/-- A name is declared in both files or in none. -/
theorem declares_eq : (c.renamedScope root file).declares = (c.scope root file).declares := by
  funext name
  unfold FileScope.declares
  rw [declared_eq]

/-- Neither name is declared in the file. -/
theorem not_declares {name : String} (h : name = c.name ∨ name = c.newName) :
    (c.scope root file).declares name = false := by
  rw [Bool.eq_false_iff]
  intro hdeclares
  -- the import itself declares nothing, so the name would be declared by one of the other items
  have hmem : name ∈ (c.scope root file).declared := List.contains_iff_mem.1 hdeclares
  obtain ⟨item, hitem, hname⟩ := List.mem_filterMap.1 (List.mem_eraseDups.1 hmem)
  rw [surfaceAll_source] at hitem
  have hother : item ∈ surfaceAll (c.before ++ c.after) := by
    rw [Source.surfaceAll_append]
    rcases List.mem_append.1 hitem with hitem | hitem
    · exact List.mem_append_left _ hitem
    · rcases List.mem_cons.1 hitem with rfl | hitem
      · cases hname
      · exact List.mem_append_right _ hitem
  rcases h with rfl | rfl
  · exact (c.undeclared item hother).1 hname
  · exact (c.undeclared item hother).2 hname

/-- The imports of a file are put together leaf by leaf. -/
theorem imports_eq_foldl (source : SourceFile) :
    (FileScope.ofSource root file source).imports =
      source.leaves.foldl (Imports.addLeaf (FileScope.ofSource root file source).modulePath
        (FileScope.ofSource root file source).children) {} := List.foldl_flatMap.symm

/-- All names but the two stand for the same in both versions. -/
theorem find?_eq {name : String} (hname : name ≠ c.name) (hnew : name ≠ c.newName) :
    (c.renamedScope root file).imports.find? name = (c.scope root file).imports.find? name := by
  -- the leaves before and after the import are the same, and the import binds only the two names
  rw [imports_eq_foldl, imports_eq_foldl, children_eq, leaves_source, leaves_renamed, List.foldl_append,
    List.foldl_append, List.foldl_cons, List.foldl_cons]
  refine Imports.find?_foldl_addLeaf_congr ?_ _
  rw [Imports.find?_addLeaf_of_ne, Imports.find?_addLeaf_of_ne]
  · rfl
  · exact fun heq => hname (Option.some.inj heq).symm
  · exact fun heq => hnew (Option.some.inj heq).symm

/-- The glob imports are the same. -/
theorem globs_eq : (c.renamedScope root file).imports.globs = (c.scope root file).imports.globs := by
  rw [imports_eq_foldl, imports_eq_foldl, children_eq, leaves_source, leaves_renamed,
    Imports.foldl_addLeaf_eq, Imports.foldl_addLeaf_eq, List.filterMap_append, List.filterMap_append,
    List.filterMap_append, List.filterMap_append]
  rfl

/-- The path of the import, which the old name stands for before and the new name afterwards. -/
theorem find?_of_canonicalize? {path : String}
    (hpath : ModulePath.canonicalize? (c.way ++ [c.name]) (c.scope root file).modulePath
      (c.scope root file).children = some path) :
    (c.scope root file).imports.find? c.name = some path ∧
      (c.renamedScope root file).imports.find? c.newName = some path := by
  have hafter (name : String) (h : ∀ leaf ∈ Source.leavesOf (c.before ++ c.after), leaf.1 ≠ some name) :
      ∀ leaf ∈ Source.leavesOf c.after, leaf.1 ≠ some name := by
    intro leaf hleaf
    refine h leaf ?_
    unfold Source.leavesOf importsOf at hleaf ⊢
    rw [Source.surfaceAll_append, List.filterMap_append, List.flatMap_append]
    exact List.mem_append_right _ hleaf
  -- no leaf behind the import binds either name, so what the import says stands at the end
  have hname := hafter c.name fun leaf hleaf => (c.only leaf hleaf).1
  have hnewName := hafter c.newName fun leaf hleaf => (c.only leaf hleaf).2
  rw [imports_eq_foldl, imports_eq_foldl, children_eq, leaves_source, leaves_renamed, List.foldl_append,
    List.foldl_append, List.foldl_cons, List.foldl_cons, Imports.find?_foldl_addLeaf_of_ne hname,
    Imports.find?_foldl_addLeaf_of_ne hnewName]
  exact ⟨Imports.find?_addLeaf_self _ rfl hpath, Imports.find?_addLeaf_self _ rfl hpath⟩

/-! ## Two views of a workspace -/

section

variable (c) (root : FilePath) (v v' : View)

/-- What a file reads as and says is that with the import before, and with the new name afterwards. -/
structure Changes (file : FilePath) : Prop where
  source : v.source file = .ok c.source
  renamed : v'.source file = .ok c.renamed
  scope : v.scope file = .ok (c.scope root file)
  renamedScope : v'.scope file = .ok (c.renamedScope root file)

/-- Two views under which modules have the same files, and each file reads as the same and says the same, or is
one with the import. -/
structure Between : Prop where
  locate_eq : v'.locate = v.locate
  answers : ∀ file, (v'.source file = v.source file ∧ v'.scope file = v.scope file) ∨
    c.Changes root v v' file

/-- A path leads to one of the two names through a file with the import. -/
def Passes (path : String) : Prop :=
  ∃ name file, (name = c.name ∨ name = c.newName) ∧ v.Opens path name (c.scope root file) ∧
    c.Changes root v v' file

/-- No chain of imports from the paths that names mean leads through a file with the import to one of its two
names. -/
def Clear (scope : FileScope) (names : List String) : Prop :=
  ∀ target ∈ scope.targets names, ∀ k ≤ importHops, ∀ next, v.Chain k target next →
    ¬ c.Passes root v v' next

end

/-- Two scopes say the same of a name. -/
structure AgreesOn (name : String) (scope scope' : FileScope) : Prop where
  declares : scope'.declares name = scope.declares name
  declaration : scope'.declaration name = scope.declaration name
  importedPaths : ∀ path, scope'.importedPaths path name = scope.importedPaths path name

/-- The first of some files to declare a name is the same where they agree on it. -/
theorem find?_declares_of_agreesOn {name : String} {scopes scopes' : List FileScope}
    (h : List.Forall₂ (AgreesOn name) scopes scopes') :
    (scopes'.find? (·.declares name)).map (·.declaration name) =
      (scopes.find? (·.declares name)).map (·.declaration name) := by
  induction h with
  | nil => rfl
  | cons hscope _ ih =>
      rw [List.find?_cons, List.find?_cons, hscope.declares]
      split
      · exact congrArg some hscope.declaration
      · exact ih

/-- Files that agree on a name import the same paths for it. -/
theorem flatMap_importedPaths_of_agreesOn {name : String} {scopes scopes' : List FileScope}
    (h : List.Forall₂ (AgreesOn name) scopes scopes') (path : String) :
    scopes'.flatMap (·.importedPaths path name) = scopes.flatMap (·.importedPaths path name) := by
  induction h with
  | nil => rfl
  | cons hscope _ ih => rw [List.flatMap_cons, List.flatMap_cons, hscope.importedPaths, ih]

/-- The two versions of the file say the same of all names but the two. -/
theorem agreesOn_of_ne {name : String} (hname : name ≠ c.name) (hnew : name ≠ c.newName) :
    AgreesOn name (c.scope root file) (c.renamedScope root file) where
  declares := congrFun (declares_eq root file) name
  declaration := rfl
  importedPaths path := by
    unfold FileScope.importedPaths
    rw [find?_eq root file hname hnew, globs_eq]

section

variable {root : FilePath} {v v' : View}

/-- A path that does not lead through a file with the import to one of the two names leads to the same under
both views. -/
theorem Between.look_eq (h : c.Between root v v') {path : String} (hpath : ¬ c.Passes root v v' path) :
    v'.look path = v.look path := by
  unfold View.look View.scopes?
  rw [h.locate_eq]
  cases hcut : Segments.cutLast? path with
  | none => rfl
  | some cut =>
      obtain ⟨modulePath, name⟩ := cut
      dsimp only
      cases hexternal : ModulePath.isExternal modulePath with
      | true => rfl
      | false =>
          have hagree (files : List FilePath) (hfiles : files ⊆ v.locate modulePath) :
              List.Forall₂ (AgreesOn name) (files.filterMap fun file => (v.scope file).toOption)
                (files.filterMap fun file => (v'.scope file).toOption) := by
            induction files with
            | nil => exact .nil
            | cons file files ih =>
                have hrest := ih (List.subset_of_cons_subset hfiles)
                rw [List.filterMap_cons, List.filterMap_cons]
                rcases h.answers file with ⟨-, hscope⟩ | hchanges
                · rw [hscope]
                  cases v.scope file with
                  | error failure => exact hrest
                  | ok scope => exact .cons ⟨rfl, rfl, fun _ => rfl⟩ hrest
                · -- only of the two names does the file say anything else
                  have hopens : v.Opens path name (c.scope root file) :=
                    ⟨modulePath, hcut, hexternal, file, hfiles List.mem_cons_self, hchanges.scope⟩
                  rw [hchanges.scope, hchanges.renamedScope]
                  have hname : name ≠ c.name := by
                    intro hname
                    exact hpath ⟨name, file, .inl hname, hopens, hchanges⟩
                  have hnew : name ≠ c.newName := by
                    intro hname
                    exact hpath ⟨name, file, .inr hname, hopens, hchanges⟩
                  exact .cons (agreesOn_of_ne root file hname hnew) hrest
          have hscopes := hagree _ (List.Subset.refl _)
          have hfind := find?_declares_of_agreesOn hscopes
          have hpaths := flatMap_importedPaths_of_agreesOn hscopes path
          rw [if_neg Bool.false_ne_true, if_neg Bool.false_ne_true]
          dsimp only
          rw [hpaths]
          generalize List.find? (·.declares name) (List.filterMap (fun file => (v.scope file).toOption) _) = found,
            List.find? (·.declares name) (List.filterMap (fun file => (v'.scope file).toOption) _) = found'
            at hfind ⊢
          cases found with
          | none =>
              rw [Option.map_none, Option.map_eq_none_iff] at hfind
              rw [hfind]
          | some scope =>
              rw [Option.map_some, Option.map_eq_some_iff] at hfind
              obtain ⟨scope', rfl, hdeclaration⟩ := hfind
              exact congrArg Sum.inl hdeclaration

/-- A path whose chain does not pass through the file leads to the same declaration. -/
theorem Between.atPath_eq (h : c.Between root v v') {path : String}
    (hpath : ∀ k ≤ importHops, ∀ next, v.Chain k path next → ¬ c.Passes root v v' next) :
    (Declaration.atPath path).under v' = (Declaration.atPath path).under v := by
  refine Declaration.within_congr ?_
  intro k hk next hchain
  have hnot : ¬ c.Passes root v v' next := hpath k (Nat.le_of_lt_succ hk) next hchain
  exact h.look_eq hnot

/-- What names mean in a file without the import. -/
theorem Between.meaning_eq (h : c.Between root v v') {scope : FileScope} {names : List String}
    (hclear : c.Clear root v v' scope names) : scope.meaning v' names = scope.meaning v names := by
  have hlookup : (scope.lookup names).under v' = (scope.lookup names).under v := by
    rw [FileScope.lookup_under, FileScope.lookup_under]
    congr 1
    refine findSome?_congr_of_mem ?_
    intro target htarget
    exact h.atPath_eq (hclear target htarget)
  unfold FileScope.meaning
  rw [hlookup]

end

/-! ### What names mean in the file -/

/-- What the import stands for is read, and it is not taken for something else: neither name is that of the
library of the file, and if the path does not lead into that library, neither is that of a well-known type. -/
structure Fits (c : RenamedImport) (root file : FilePath) (path : String) : Prop where
  canonical : ModulePath.canonicalize? (c.way ++ [c.name]) (c.scope root file).modulePath
    (c.scope root file).children = some path
  library : ∀ name ∈ [c.name, c.newName], name ≠ (Segments.split (c.scope root file).modulePath).headD ""
  unknown : (c.scope root file).ownsPath path = true ∨
    ∀ name ∈ [c.name, c.newName], WellKnown.ofName? name (some path) = none

/-- Names that begin with another one stay as they are. -/
theorem replace_eq_of_ne {names : List String} (h : names.head? ≠ some c.name) :
    renameHead c.replace names = names := by
  cases names with
  | nil => rfl
  | cons first rest =>
      have hfirst : first ≠ c.name := fun heq => h (congrArg some heq)
      rw [renameHead, replace_of_ne hfirst]

/-- What names stand for in the file itself they stand for when they are renamed. -/
theorem own?_rename (names : List String) (hnew : names.head? ≠ some c.newName) :
    (c.renamedScope root file).own? (renameHead c.replace names) = (c.scope root file).own? names := by
  rcases names with _ | ⟨first, _ | ⟨second, rest⟩⟩
  · rfl
  · unfold FileScope.own? renameHead
    dsimp only
    rw [declares_eq]
    by_cases hfirst : first = c.name
    · rw [hfirst, replace_name, not_declares root file (.inl rfl), not_declares root file (.inr rfl)]
      rfl
    · rw [replace_of_ne hfirst]
      rfl
  · rfl

/-- The targets of names are those of the renamed names in the rewritten file. -/
theorem targets_rename {path : String} (h : c.Fits root file path) (names : List String)
    (hnew : names.head? ≠ some c.newName) :
    (c.renamedScope root file).targets (renameHead c.replace names) = (c.scope root file).targets names := by
  obtain ⟨hold, hrenamed⟩ := find?_of_canonicalize? root file h.canonical
  rcases names with _ | ⟨first, rest⟩
  · rfl
  · have hfirst : first ≠ c.newName := fun heq => hnew (congrArg some heq)
    by_cases hname : first = c.name
    · -- both names stand for the path of the import, each in its version of the file
      subst hname
      rw [renameHead, replace_name]
      cases rest with
      | nil => simp only [FileScope.targets, hold, hrenamed]
      | cons second rest => simp only [FileScope.targets, hold, hrenamed]
    · rw [renameHead, replace_of_ne hname]
      cases rest with
      | nil => simp only [FileScope.targets, find?_eq root file hname hfirst, globs_eq]
      | cons second rest =>
          simp only [FileScope.targets, find?_eq root file hname hfirst, children_eq]
          rfl

/-- A path that begins with one of the two names does not lead into the library of the file, and not into that
of JSON values. -/
theorem not_ownsPath {path : String} (h : c.Fits root file path) (first : String)
    (hfirst : first ∈ [c.name, c.newName]) {rest : List String} (hrest : rest ≠ []) (scope : FileScope)
    (hscope : scope.modulePath = (c.scope root file).modulePath) :
    scope.ownsPath (Segments.join (first :: rest)) = false ∧
      (Segments.join (first :: rest)).startsWith WellKnown.jsonLibrary = false := by
  have hplain : ':' ∉ first.toList := by
    rcases List.mem_pair.1 hfirst with rfl | rfl
    · exact c.plain.not_colon
    · exact c.newPlain.not_colon
  -- The renamed names are plain identifiers, so neither starts the path of the crate or of a library.
  have hword {word : String} (hword : word ∈ ModulePath.startWords ++ ["Self", "_", "serde_json"]) :
      first ≠ word := by
    rcases List.mem_pair.1 hfirst with rfl | rfl
    · exact (name_ne hword).1
    · exact (name_ne hword).2
  obtain ⟨more, hsplit⟩ := Segments.split_join_cons hplain rest
  constructor
  · unfold FileScope.ownsPath
    rw [hscope, hsplit, Bool.or_eq_false_iff]
    constructor
    · rw [Bool.eq_false_iff]
      intro hstarts
      have hcrate := Segments.eq_of_startsWith_join "crate" (by decide) hplain hrest hstarts
      exact hword (by decide) hcrate
    · exact beq_eq_false_iff_ne.2 (h.library first hfirst)
  · rw [Bool.eq_false_iff]
    intro hstarts
    have hjson := Segments.eq_of_startsWith_join "serde_json" (by decide) hplain hrest hstarts
    exact hword (by decide) hjson

/-- What names lead to they lead to when they are renamed, in the rewritten file. -/
theorem lookup_rename {v v' : View} (h : c.Between root v v') {path : String} (hfits : c.Fits root file path)
    {names : List String} (hnew : names.head? ≠ some c.newName)
    (hclear : c.Clear root v v' (c.scope root file) names) :
    ((c.renamedScope root file).lookup (renameHead c.replace names)).under v' =
      ((c.scope root file).lookup names).under v := by
  rw [FileScope.lookup_under, FileScope.lookup_under, own?_rename root file names hnew,
    targets_rename root file hfits names hnew]
  congr 1
  refine findSome?_congr_of_mem ?_
  intro target htarget
  exact h.atPath_eq (hclear target htarget)

section

variable {v v' : View} {path : String}

/-- The name alone means the same as the new one alone: it is known to be the file's own, or not well-known. -/
theorem meaning_name (h : c.Between root v v') (hfits : c.Fits root file path)
    (hclear : c.Clear root v v' (c.scope root file) [c.name]) :
    (c.renamedScope root file).meaning v' [c.newName] = (c.scope root file).meaning v [c.name] := by
  have hnew : [c.name].head? ≠ some c.newName := fun heq => c.ne (Option.some.inj heq).symm
  have hlookup := lookup_rename root file h hfits hnew hclear
  rw [renameHead, replace_name] at hlookup
  obtain ⟨hold, hrenamed⟩ := find?_of_canonicalize? root file hfits.canonical
  have howns : (c.scope root file).owns [c.name] = (c.scope root file).ownsPath path := by
    simp [FileScope.owns, FileScope.origin?, hold, not_declares root file (.inl rfl)]
  have howns' : (c.renamedScope root file).owns [c.newName] = (c.scope root file).ownsPath path := by
    simp [FileScope.owns, FileScope.origin?, hrenamed, declares_eq, not_declares root file (.inr rfl)]
    rfl
  -- either the path is the file's own under both names, or neither name is well known
  rcases hfits.unknown with hpath | hunknown
  · rw [FileScope.meaning_of_owns v (howns.trans hpath),
      FileScope.meaning_of_owns v' (howns'.trans hpath), hlookup]
  · have hnone : WellKnown.ofName? ([c.name].getLastD "") ((c.scope root file).origin? [c.name]) = none := by
      rw [FileScope.origin?, hold]
      exact hunknown _ (by simp)
    have hnone' : WellKnown.ofName? ([c.newName].getLastD "")
        ((c.renamedScope root file).origin? [c.newName]) = none := by
      rw [FileScope.origin?, hrenamed]
      exact hunknown _ (by simp)
    rw [FileScope.meaning_of_ofName?_eq_none v hnone, FileScope.meaning_of_ofName?_eq_none v' hnone',
      hlookup]

/-- A path below the name means the same as below the new one: neither leads into the library of the file. -/
theorem meaning_path (h : c.Between root v v') (hfits : c.Fits root file path) {rest : List String} (hrest : rest ≠ [])
    (hclear : c.Clear root v v' (c.scope root file) (c.name :: rest)) :
    (c.renamedScope root file).meaning v' (c.newName :: rest) = (c.scope root file).meaning v (c.name :: rest) := by
  obtain ⟨second, rest, rfl⟩ := List.exists_cons_of_ne_nil hrest
  have hnew : (c.name :: second :: rest).head? ≠ some c.newName := fun heq => c.ne (Option.some.inj heq).symm
  have hlookup := lookup_rename root file h hfits hnew hclear
  rw [renameHead, replace_name] at hlookup
  -- Neither path belongs to the project by its first segment, so what a longer path means is decided by the
  -- look-up and its end.
  have hpath := not_ownsPath root file hfits c.name (by simp) hrest (c.scope root file) rfl
  have hpath' := not_ownsPath root file hfits c.newName (by simp) hrest (c.renamedScope root file) rfl
  have hjson : WellKnown.ofName? ((second :: rest).getLastD "") (some (Segments.join (c.newName :: second :: rest))) =
      WellKnown.ofName? ((second :: rest).getLastD "") (some (Segments.join (c.name :: second :: rest))) :=
    WellKnown.ofName?_congr _ (by simp [hpath.2, hpath'.2])
  unfold FileScope.meaning
  rw [hlookup]
  simp only [FileScope.owns, FileScope.origin?, List.getLastD_cons, hpath.1, hpath'.1, Option.any_some]
  simp only [List.getLastD_cons] at hjson
  rw [hjson]
  rfl

/-- Names that begin with neither of the two mean the same. -/
theorem meaning_of_ne (h : c.Between root v v') (hfits : c.Fits root file path) {names : List String}
    (hname : names.head? ≠ some c.name) (hnew : names.head? ≠ some c.newName)
    (hclear : c.Clear root v v' (c.scope root file) names) :
    (c.renamedScope root file).meaning v' names = (c.scope root file).meaning v names := by
  have hlookup := lookup_rename root file h hfits hnew hclear
  rw [replace_eq_of_ne hname] at hlookup
  have hfind : (c.renamedScope root file).origin? names = (c.scope root file).origin? names := by
    -- Only a single name is looked up among the imports as an origin.
    rcases names with _ | ⟨first, _ | ⟨second, rest⟩⟩
    · rfl
    · have hother : first ≠ c.name := fun heq => hname (congrArg some heq)
      have hother' : first ≠ c.newName := fun heq => hnew (congrArg some heq)
      exact find?_eq root file hother hother'
    · rfl
  unfold FileScope.meaning FileScope.owns
  rw [hlookup, hfind, declares_eq]
  rfl

/-- Names mean the same in the file before, and with the new name in the place of the old one afterwards. -/
theorem meaning_rename (h : c.Between root v v') (hfits : c.Fits root file path) {names : List String}
    (hnew : names.head? ≠ some c.newName) (hclear : c.Clear root v v' (c.scope root file) names) :
    (c.renamedScope root file).meaning v' (renameHead c.replace names) =
      (c.scope root file).meaning v names := by
  -- The renamed name by itself, as the head of a longer path, or not at the head at all.
  by_cases hname : names.head? = some c.name
  · obtain ⟨rest, rfl⟩ : ∃ rest, names = c.name :: rest := by
      cases names with
      | nil => cases hname
      | cons first rest => exact ⟨rest, by rw [Option.some.inj hname]⟩
    rw [renameHead, replace_name]
    by_cases hrest : rest = []
    · subst hrest
      exact meaning_name root file h hfits hclear
    · exact meaning_path root file h hfits hrest hclear
  · rw [replace_eq_of_ne hname]
    exact meaning_of_ne root file h hfits hname hnew hclear

end

end RenamedImport

end PayloadSchema
