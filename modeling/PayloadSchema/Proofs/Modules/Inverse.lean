import Mathlib.Data.List.Induction
import PayloadSchema.Proofs.Files.Joining
import PayloadSchema.Proofs.Text.Segments

/-!
# Files and their modules

A file is known by its module path, and a module path is located in files. One direction cuts the path of
the file at its last `src`, takes the directory before it for the library, with underscores for hyphens, and
leaves out the names that stand for a directory; the other tries every directory that the library may lie in,
with the name as it is and with hyphens, and two files for each module. They meet for every file of a package
(`PackageSources`) that holds a module (`HoldsModule`).

* `ModulePath.ofFile_eq` — the module of a file below the sources of a package;
* `Locating.exists_mem_exact` — the file is among those that its module path itself gives;
* `Locating.pairwise_distinct` — no path is located twice;
* `Locator.locate_ofFile` — both together.
-/

namespace PayloadSchema

/-- A name that a module may have in a path and as a file: without dots, slashes and colons. -/
def IsModuleName (name : String) : Prop :=
  name ≠ "" ∧ '.' ∉ name.toList ∧ '/' ∉ name.toList ∧ ':' ∉ name.toList

instance (name : String) : Decidable (IsModuleName name) := inferInstanceAs (Decidable (_ ∧ _))

namespace IsModuleName

variable {name : String}

theorem ne_empty (h : IsModuleName name) : name ≠ "" := h.1

theorem not_dot (h : IsModuleName name) : '.' ∉ name.toList := h.2.1

theorem not_slash (h : IsModuleName name) : '/' ∉ name.toList := h.2.2.1

theorem not_colon (h : IsModuleName name) : ':' ∉ name.toList := h.2.2.2

theorem isName (h : IsModuleName name) : FilePath.IsName name where
  ne_empty := h.ne_empty
  not_slash := h.not_slash
  not_current := by
    rintro rfl
    exact h.not_dot (by decide)
  not_parent := by
    rintro rfl
    exact h.not_dot (by decide)

/-- With its extension, the name of a module is the name of a file. -/
theorem isName_file (h : IsModuleName name) : FilePath.IsName (name ++ "." ++ "rs") where
  ne_empty := by simp
  not_slash := by simpa using h.not_slash
  not_current := by
    intro hdot
    have hlast := congrArg (·.toList.getLast?) hdot
    simp at hlast
  not_parent := by
    intro hdots
    have hlast := congrArg (·.toList.getLast?) hdots
    simp at hlast

end IsModuleName

/-! ## Packages -/

/-- The name of a package that is not taken for another library. Its words are separated by hyphens or by
underscores. -/
structure IsPackageName (package : String) : Prop where
  moduleName : IsModuleName package
  separated : '-' ∉ package.toList ∨ '_' ∉ package.toList
  not_reserved : package ∉ ModulePath.ownLibrary :: ModulePath.standardLibraries

/-- The directories from a workspace to a package, whose sources are below `src`, and the name of its
library. -/
inductive PackageSources : List String → String → Prop where
  | own : PackageSources [] ModulePath.ownLibrary
  | member {package : String} (h : IsPackageName package) :
      PackageSources ["crates", package] (Locating.normalized package)
  | beside {package : String} (h : IsPackageName package) :
      PackageSources [package] (Locating.normalized package)

/-- The path of a file below the sources of a package, and the names of the module that it holds. -/
inductive HoldsModule : List String → List String → Prop where
  | named {directories : List String} {name : String} (h : ∀ directory ∈ directories, IsModuleName directory)
      (hsource : "src" ∉ directories) (hname : IsModuleName name) (hspecial : name ∉ ["mod", "lib", "main"]) :
      HoldsModule (directories ++ [name ++ "." ++ "rs"]) (directories ++ [name])
  | directory {directories : List String} (h : ∀ directory ∈ directories, IsModuleName directory)
      (hsource : "src" ∉ directories) (hne : directories ≠ []) :
      HoldsModule (directories ++ ["mod.rs"]) directories
  | library : HoldsModule ["lib.rs"] []
  | program : HoldsModule ["main.rs"] []

/-! ## Names of libraries -/

/-- A text is not changed where none of its characters is. -/
theorem map_eq_self {f : Char → Char} {text : String} (h : ∀ c ∈ text.toList, f c = c) :
    text.map f = text := by
  refine String.toList_inj.1 ?_
  rw [String.toList_map, List.map_congr_left h, List.map_id']

namespace Locating

/-- A normalized name has an underscore for every hyphen. -/
theorem mem_normalized_iff {package : String} {c : Char} :
    c ∈ (normalized package).toList ↔
      (c ∈ package.toList ∧ c ≠ '-') ∨ (c = '_' ∧ '-' ∈ package.toList) := by
  rw [normalized, String.toList_map, List.mem_map]
  constructor
  · rintro ⟨c, hc, rfl⟩
    by_cases hdash : c = '-'
    · rw [if_pos hdash]
      exact .inr ⟨rfl, hdash ▸ hc⟩
    · rw [if_neg hdash]
      exact .inl ⟨hc, hdash⟩
  · rintro (⟨hc, hdash⟩ | ⟨rfl, hdash⟩)
    · exact ⟨c, hc, if_neg hdash⟩
    · exact ⟨'-', hdash, if_pos rfl⟩

/-- Normalizing a name brings in nothing but underscores. -/
theorem not_mem_normalized {package : String} {c : Char} (h : c ∉ package.toList) (hother : c ≠ '_') :
    c ∉ (normalized package).toList := by
  rw [mem_normalized_iff]
  rintro (⟨hmem, -⟩ | ⟨heq, -⟩)
  · exact h hmem
  · exact hother heq

/-- A name without hyphens is normalized already. -/
theorem normalized_of_not_mem {package : String} (h : '-' ∉ package.toList) :
    normalized package = package :=
  map_eq_self fun c hc => if_neg fun hdash : c = '-' => h (hdash ▸ hc)

/-- Libraries without an underscore in their names are only those of packages with just that name. -/
theorem normalized_not_mem {libraries : List String} (hwords : ∀ library ∈ libraries, '_' ∉ library.toList)
    {package : String} (h : package ∉ libraries) : normalized package ∉ libraries := by
  intro hmem
  have hdash : '-' ∉ package.toList := by
    intro hdash
    exact hwords _ hmem (mem_normalized_iff.2 (.inr ⟨rfl, hdash⟩))
  rw [normalized_of_not_mem hdash] at hmem
  exact h hmem

/-- With words separated in one way, the name of a package is that of its library, or that with hyphens for
underscores. -/
theorem eq_or_eq_of_separated {package : String} (h : '-' ∉ package.toList ∨ '_' ∉ package.toList) :
    package = normalized package ∨
      package = (normalized package).map fun c => if c = '_' then '-' else c := by
  rcases h with hdash | hunderscore
  · exact .inl (normalized_of_not_mem hdash).symm
  · right
    -- Without underscores of its own, each one in the normalized name was a hyphen.
    have hback : ∀ c ∈ package.toList,
        c = ((fun c => if c = '_' then '-' else c) ∘ fun c => if c = '-' then '_' else c) c := by
      intro c hc
      by_cases hdash : c = '-'
      · simp [hdash]
      · have hother : c ≠ '_' := fun hother => hunderscore (hother ▸ hc)
        simp [hdash, hother]
    apply String.toList_inj.1
    rw [normalized, String.toList_map, String.toList_map, List.map_map]
    exact (List.map_id' _).symm.trans (List.map_congr_left hback)

end Locating

namespace IsPackageName

open ModulePath Locating

variable {package : String}

/-- The normalized name of a package is that of a module. -/
theorem isModuleName_normalized (h : IsPackageName package) : IsModuleName (normalized package) := by
  have hname := h.moduleName
  have hnonempty : normalized package ≠ "" := by
    intro hempty
    rw [← String.toList_eq_nil_iff, normalized, String.toList_map, List.map_eq_nil_iff] at hempty
    exact hname.ne_empty (String.toList_eq_nil_iff.1 hempty)
  -- an underscore is none of the marks of a path
  have hdot := not_mem_normalized hname.not_dot (by decide)
  have hslash := not_mem_normalized hname.not_slash (by decide)
  have hcolon := not_mem_normalized hname.not_colon (by decide)
  exact ⟨hnonempty, hdot, hslash, hcolon⟩

/-- The normalized name of a package is neither that of the own library nor that of a standard one. -/
theorem normalized_not_reserved (h : IsPackageName package) :
    normalized package ∉ ownLibrary :: standardLibraries :=
  normalized_not_mem (by decide) h.not_reserved

end IsPackageName

/-! ## The module of a file -/

namespace ModulePath

/-- A path is cut at the last directory for sources. -/
theorem cutSource?_append (before : List String) {inside : List String} (h : "src" ∉ inside) :
    cutSource? (before ++ "src" :: inside) = some (before, inside) := by
  -- read from the end, the first `src` is the one after which there is no other
  have hafter : ((before ++ "src" :: inside).reverse.takeWhile (· ≠ "src")).reverse = inside := by
    have hinside : ∀ name ∈ inside.reverse, decide (name ≠ "src") = true := by
      intro name hname
      apply decide_eq_true
      rintro rfl
      exact h (List.mem_reverse.1 hname)
    rw [List.reverse_append, List.reverse_cons, List.append_assoc,
      List.takeWhile_append_of_pos hinside]
    simp
  have hbefore : (before ++ "src" :: inside).length - inside.length - 1 = before.length := by
    simp only [List.length_append, List.length_cons]
    omega
  unfold cutSource?
  dsimp only
  rw [hafter, hbefore, List.take_left, if_pos (by simp)]

/-- The stem of a source file is the name before its extension. -/
theorem stem_append (name : String) : stem (name ++ "." ++ "rs") = name := by
  have hends : (name ++ "." ++ "rs").endsWith ".rs" = true := by
    rw [String.endsWith, String.Slice.endsWith_string_iff, String.copy_toSlice]
    exact ⟨name.toList, by simp⟩
  rw [stem, if_pos hends]
  refine String.toList_inj.1 ?_
  simp

/-- The modules of a file are its directories and its stem, unless the stem says that the file is that of its
directory. -/
theorem modulesOf_concat (directories : List String) (name : String) :
    modulesOf (directories ++ [name ++ "." ++ "rs"]) =
      directories ++ if ["mod", "lib", "main"].contains name then [] else [name] := by
  rw [modulesOf, List.getLast?_concat]
  dsimp only
  rw [stem_append, List.dropLast_concat]

/-- The library that a package in a directory is. -/
def libraryOf (before : List String) : String :=
  match before.getLast? with
  | none => ownLibrary
  | some directory => Locating.normalized directory

/-- The module of a file below the sources of a package. -/
theorem ofFile_eq {root file : FilePath} {before inside : List String} (h : "src" ∉ inside)
    (hfile : file.parts = root.parts ++ (before ++ "src" :: inside).map .name) :
    ofFile root file = Segments.join (libraryOf before :: modulesOf inside) := by
  have hnames : FilePath.names ((file.relativeTo? root).getD file.parts) = before ++ "src" :: inside := by
    have hprefix : root.parts.isPrefixOf file.parts = true := by
      rw [List.isPrefixOf_iff_prefix, hfile]
      exact List.prefix_append _ _
    rw [FilePath.relativeTo?, if_pos hprefix, Option.getD_some, hfile, List.drop_left]
    -- all parts below the root are names
    generalize before ++ "src" :: inside = names
    induction names with
    | nil => rfl
    | cons name names ih => exact congrArg (name :: ·) ih
  unfold ofFile libraryOf
  dsimp only
  rw [hnames, cutSource?_append before h]
  dsimp only
  cases before.getLast? <;> rfl

/-- A path that begins with a library that is not a standard one is not external. -/
theorem isExternal_join {library : String} (hcolon : ':' ∉ library.toList)
    (hstandard : library ∉ standardLibraries) (names : List String) :
    isExternal (Segments.join (library :: names)) = false := by
  obtain ⟨more, hsplit⟩ := Segments.split_join_cons hcolon names
  rw [isExternal, hsplit, List.headD_cons]
  simpa using hstandard

end ModulePath

namespace HoldsModule

open ModulePath

variable {inside names : List String}

/-- The module path of the file has the names of the module. -/
theorem modulesOf_eq (h : HoldsModule inside names) : modulesOf inside = names := by
  cases h with
  | @named directories name _ _ _ hspecial =>
      rw [modulesOf_concat, if_neg (by simpa using hspecial)]
  | directory => exact (modulesOf_concat names "mod").trans (List.append_nil names)
  | library => exact modulesOf_concat [] "lib"
  | program => exact modulesOf_concat [] "main"

theorem isModuleName (h : HoldsModule inside names) : ∀ name ∈ names, IsModuleName name := by
  cases h with
  | named h _ hname =>
      intro name hmem
      rcases List.mem_append.1 hmem with hmem | hmem
      · exact h name hmem
      · exact List.mem_singleton.1 hmem ▸ hname
  | directory h => exact h
  | library => simp
  | program => simp

/-- All kinds of files lie in some directories and have a name with an ending. -/
theorem exists_file (h : HoldsModule inside names) :
    ∃ directories name, inside = directories ++ [name ++ "." ++ "rs"] ∧
      (∀ directory ∈ directories, IsModuleName directory) ∧ "src" ∉ directories ∧ IsModuleName name := by
  cases h with
  | @named directories name h hsource hname => exact ⟨directories, name, rfl, h, hsource, hname⟩
  | directory h hsource => exact ⟨names, "mod", rfl, h, hsource, by decide⟩
  | library => exact ⟨[], "lib", rfl, by simp, by simp, by decide⟩
  | program => exact ⟨[], "main", rfl, by simp, by simp, by decide⟩

theorem isName (h : HoldsModule inside names) : ∀ name ∈ inside, FilePath.IsName name := by
  obtain ⟨directories, file, rfl, hdirectories, -, hfile⟩ := h.exists_file
  intro name hmem
  rcases List.mem_append.1 hmem with hmem | hmem
  · exact (hdirectories name hmem).isName
  · exact List.mem_singleton.1 hmem ▸ hfile.isName_file

/-- The last `src` is that of the package. -/
theorem source_not_mem (h : HoldsModule inside names) : "src" ∉ inside := by
  obtain ⟨directories, file, rfl, -, hsource, -⟩ := h.exists_file
  intro hmem
  rcases List.mem_append.1 hmem with hmem | hmem
  · exact hsource hmem
  · -- the name of the file has a dot
    have hdot : '.' ∈ "src".toList := by
      rw [List.mem_singleton.1 hmem]
      simp
    revert hdot
    decide

/-- The path of a source file ends as its extension does. -/
theorem getLast?_text (h : HoldsModule inside names) :
    (inside.foldl FilePath.below ⟨""⟩).text.toList.getLast? = some 's' := by
  obtain ⟨directories, file, rfl, -⟩ := h.exists_file
  obtain ⟨start, hstart⟩ := (directories.foldl FilePath.below ⟨""⟩).below_text (file ++ "." ++ "rs")
  rw [List.foldl_append, List.foldl_cons, List.foldl_nil, hstart]
  simp

end HoldsModule

/-! ## The files of a module -/

namespace Locating

variable {files : Files} {root file base : FilePath} {before inside names : List String} {library : String}

/-- The files of a module that is not the library itself: one of its name, and one in its directory. -/
theorem moduleFiles_of_ne_nil (h : names ≠ []) :
    moduleFiles files base names =
      [base.join ((names.foldl FilePath.below ⟨""⟩).withExtension "rs"),
        base.join ((names.foldl FilePath.below ⟨""⟩).below "mod.rs")].filter files.isFile := by
  cases names with
  | nil => exact absurd rfl h
  | cons name names => rfl

/-- The path inside a directory of a file that holds a module is one of those that are looked for. -/
theorem mem_moduleFiles (hmodule : HoldsModule inside names)
    (hfile : files.isFile (base.join (inside.foldl FilePath.below ⟨""⟩)) = true) :
    base.join (inside.foldl FilePath.below ⟨""⟩) ∈ moduleFiles files base names := by
  -- a module below the library has a file of its name and one in its directory, the library has two of its own
  cases hmodule with
  | @named directories name h hsource hname hspecial =>
      rw [moduleFiles_of_ne_nil (List.append_ne_nil_of_right_ne_nil _ (List.cons_ne_nil _ _))]
      refine List.mem_filter.2 ⟨List.mem_cons.2 (.inl ?_), hfile⟩
      simp only [List.foldl_append, List.foldl_cons, List.foldl_nil]
      rw [FilePath.withExtension_below hname.isName hname.not_dot _ hname.isName_file]
  | directory h hsource hne =>
      rw [moduleFiles_of_ne_nil hne]
      refine List.mem_filter.2 ⟨List.mem_cons_of_mem _ (List.mem_singleton.2 ?_), hfile⟩
      simp only [List.foldl_append, List.foldl_cons, List.foldl_nil]
  | library =>
      simp only [List.foldl_cons, List.foldl_nil, FilePath.below, FilePath.empty_join] at hfile ⊢
      exact List.mem_filter.2 ⟨List.mem_cons_self, hfile⟩
  | program =>
      simp only [List.foldl_cons, List.foldl_nil, FilePath.below, FilePath.empty_join] at hfile ⊢
      exact List.mem_filter.2 ⟨List.mem_cons_of_mem _ List.mem_cons_self, hfile⟩

/-- The file that holds a module below a directory is one of the files of the module there. -/
theorem exists_mem_moduleFiles (hmodule : HoldsModule inside names) (hfile : files.isFile file = true)
    (hparts : file.parts = base.parts ++ inside.map .name) :
    ∃ p ∈ moduleFiles files base names, p.parts = file.parts := by
  -- the path inside is joined to the directory as a whole
  have hrelative : (inside.foldl FilePath.below ⟨""⟩).IsRelative :=
    FilePath.isRelative_foldl_below FilePath.isRelative_empty hmodule.isName
  have hsame : file.parts = (base.join (inside.foldl FilePath.below ⟨""⟩)).parts := by
    rw [FilePath.parts_join hrelative, FilePath.parts_foldl_below _ hmodule.isName, hparts]
    rfl
  -- however the path was spelled, this spelling does not say directory, so that the file is there under it
  have hplain : (base.join (inside.foldl FilePath.below ⟨""⟩)).saysDirectory = false := by
    obtain ⟨start, hstart⟩ := base.below_text (inside.foldl FilePath.below ⟨""⟩).text
    refine FilePath.saysDirectory_of_getLast? (c := 's') ?_ (by decide) (by decide)
    rw [FilePath.below] at hstart
    rw [hstart, String.toList_append, List.getLast?_append, hmodule.getLast?_text]
    rfl
  exact ⟨_, mem_moduleFiles hmodule (Files.SameFile.of_parts hsame hfile hplain).right, hsame.symm⟩

/-- The directories that are tried for a library of another name. -/
theorem exactBases_of_ne (root : FilePath) {library : String} (h : library ≠ ModulePath.ownLibrary)
    {package : String}
    (hpackage : package = library ∨ package = library.map fun c => if c = '_' then '-' else c)
    (names : List String) :
    (((root.below "crates").below package).below "src", names) ∈ exactBases root (library :: names) ∧
      ((root.below package).below "src", names) ∈ exactBases root (library :: names) := by
  rw [exactBases, if_neg h]
  dsimp only
  have hmem : package ∈ [library, library.map fun c => if c = '_' then '-' else c] := by
    simpa using hpackage
  constructor <;> refine List.mem_append_left _ (List.mem_flatMap.2 ⟨package, hmem, ?_⟩) <;> simp

/-- The sources of a package are one of the places that its library may lie in. -/
theorem exists_mem_exactBases (root : FilePath) (hsources : PackageSources before library)
    (names : List String) :
    ∃ base, (base, names) ∈ exactBases root (library :: names) ∧
      base.parts = root.parts ++ (before ++ ["src"]).map .name := by
  have hsource : FilePath.IsName "src" := by decide
  have hcrates : FilePath.IsName "crates" := by decide
  -- The three places a package can have: the project itself, a member under `crates`, one beside it.
  cases hsources with
  | own =>
      refine ⟨root.below "src", ?_, hsource.parts_below root⟩
      rw [exactBases, if_pos rfl]
      exact List.mem_cons_self
  | @member package h =>
      have hbases := exactBases_of_ne root (List.ne_of_not_mem_cons h.normalized_not_reserved)
        (eq_or_eq_of_separated h.separated) names
      refine ⟨_, hbases.1, ?_⟩
      rw [hsource.parts_below, h.moduleName.isName.parts_below, hcrates.parts_below]
      simp
  | @beside package h =>
      have hbases := exactBases_of_ne root (List.ne_of_not_mem_cons h.normalized_not_reserved)
        (eq_or_eq_of_separated h.separated) names
      refine ⟨_, hbases.2, ?_⟩
      rw [hsource.parts_below, h.moduleName.isName.parts_below]
      simp

/-- **The file of a module path.** The file that holds a module in a package is among the files that the
path of the module itself gives. -/
theorem exists_mem_exact (hsources : PackageSources before library) (hmodule : HoldsModule inside names)
    (hparts : file.parts = root.parts ++ (before ++ "src" :: inside).map .name)
    (hfile : files.isFile file = true) :
    ∃ p ∈ exact files root (library :: names), p.parts = file.parts := by
  obtain ⟨base, hbase, hbaseParts⟩ := exists_mem_exactBases root hsources names
  have hinside : file.parts = base.parts ++ inside.map .name := by
    rw [hparts, hbaseParts]
    simp
  obtain ⟨p, hp, hpParts⟩ := exists_mem_moduleFiles hmodule hfile hinside
  exact ⟨p, List.mem_flatMap.2 ⟨_, hbase, hp⟩, hpParts⟩

/-! ## Each path once -/

/-- What is kept with one more path. -/
theorem distinct_concat (paths : List FilePath) (p : FilePath) :
    distinct (paths ++ [p]) =
      if (distinct paths).any p.same then distinct paths else distinct paths ++ [p] := by
  rw [distinct, List.foldl_append]
  rfl

/-- The paths that are kept differ in their parts. -/
theorem pairwise_distinct (paths : List FilePath) :
    (distinct paths).Pairwise fun p q => p.same q = false := by
  induction paths using List.reverseRecOn with
  | nil => exact .nil
  | append_singleton paths p ih =>
      rw [distinct_concat]
      by_cases hknown : (distinct paths).any p.same = true
      · rw [if_pos hknown]
        exact ih
      · rw [if_neg hknown]
        refine List.pairwise_append.2 ⟨ih, List.pairwise_singleton _ _, ?_⟩
        intro q hq p' hp'
        rw [List.mem_singleton.1 hp', FilePath.same, BEq.comm, Bool.eq_false_iff]
        intro hsame
        exact hknown (List.any_eq_true.2 ⟨q, hq, hsame⟩)

/-- Every path is kept in some spelling. -/
theorem exists_mem_distinct {paths : List FilePath} {p : FilePath} (h : p ∈ paths) :
    ∃ q ∈ distinct paths, q.parts = p.parts := by
  induction paths using List.reverseRecOn with
  | nil => cases h
  | append_singleton paths last ih =>
      rw [distinct_concat]
      by_cases hknown : (distinct paths).any last.same = true
      · rw [if_pos hknown]
        rcases List.mem_append.1 h with h | h
        · exact ih h
        · -- another spelling of the path is kept in its place
          obtain ⟨q, hq, hsame⟩ := List.any_eq_true.1 hknown
          rw [List.mem_singleton.1 h]
          exact ⟨q, hq, (beq_iff_eq.1 hsame).symm⟩
      · rw [if_neg hknown]
        rcases List.mem_append.1 h with h | h
        · obtain ⟨q, hq, hparts⟩ := ih h
          exact ⟨q, List.mem_append_left _ hq, hparts⟩
        · exact ⟨last, List.mem_append_right _ List.mem_cons_self, by rw [List.mem_singleton.1 h]⟩

end Locating

/-! ## Both directions -/

namespace PackageSources

open ModulePath

variable {before : List String} {library : String}

/-- The library of a package is known by its directory. -/
theorem libraryOf_eq (h : PackageSources before library) : libraryOf before = library := by
  cases h <;> rfl

theorem isModuleName (h : PackageSources before library) : IsModuleName library := by
  cases h with
  | own => decide
  | member h => exact h.isModuleName_normalized
  | beside h => exact h.isModuleName_normalized

/-- The library of a package is not a standard one. -/
theorem not_standard (h : PackageSources before library) : library ∉ standardLibraries := by
  cases h with
  | own => decide
  | member h | beside h =>
      intro hmem
      exact h.normalized_not_reserved (List.mem_cons_of_mem _ hmem)

theorem isName (h : PackageSources before library) : ∀ name ∈ before, FilePath.IsName name := by
  cases h with
  | own => simp
  | member h => simpa using ⟨by decide, h.moduleName.isName⟩
  | beside h => simpa using h.moduleName.isName

end PackageSources

namespace Locating

/-- The segments that plain names are joined to. -/
theorem segments_join {names : List String} (hne : names ≠ []) (h : ∀ name ∈ names, IsModuleName name) :
    (Segments.split (Segments.join names)).filter (· ≠ "") = names := by
  rw [Segments.split_join hne fun name hname => (h name hname).not_colon, List.filter_eq_self]
  intro name hname
  exact decide_eq_true (h name hname).ne_empty

/-- The files that a module path itself gives. -/
def exactFiles (files : Files) (root : FilePath) (module : String) : List FilePath :=
  exact files root ((Segments.split module).filter (· ≠ ""))

end Locating

namespace Locator

/-- A locator that remembers nothing finds the files that the module path itself gives, if there are any. -/
theorem locate_of_exactFiles {files : Files} {root : FilePath} {module : String}
    (hinside : ModulePath.isExternal module = false) (h : Locating.exactFiles files root module ≠ []) :
    (locate { root } files module).1 = Locating.distinct (Locating.exactFiles files root module) := by
  have htier : Locating.locate files root module = Locating.distinct (Locating.exactFiles files root module) :=
    if_pos h
  rw [locate, if_neg (Bool.eq_false_iff.1 hinside), ← htier]
  rfl

/-- **Files and modules.** For every file of a package that holds a module, however its path is spelled: the
module path of the file names the library and the module in it, and a locator that remembers nothing finds
files for that path, by the path itself, each of them once, and the file is one of them. -/
theorem locate_ofFile (files : Files) (root : FilePath) {file : FilePath} {before inside names : List String}
    {library : String} (hsources : PackageSources before library) (hmodule : HoldsModule inside names)
    (hpath : file.same ((before ++ "src" :: inside).foldl FilePath.below root) = true)
    (hfile : files.isFile file = true) :
    let module := ModulePath.ofFile root file
    let tier := Locating.exactFiles files root module
    let found := (locate { root } files module).1
    module = Segments.join (library :: names) ∧ tier ≠ [] ∧ found = Locating.distinct tier ∧
      (∃ p ∈ found, p.same file = true) ∧ found.Pairwise fun p q => p.same q = false := by
  intro module tier found
  have hnames : ∀ name ∈ before ++ "src" :: inside, FilePath.IsName name := by
    rw [List.forall_mem_append, List.forall_mem_cons]
    exact ⟨hsources.isName, by decide, hmodule.isName⟩
  have hparts : file.parts = root.parts ++ (before ++ "src" :: inside).map .name := by
    rw [← FilePath.parts_foldl_below root hnames]
    exact beq_iff_eq.1 hpath
  have hjoin : module = Segments.join (library :: names) := by
    rw [← hsources.libraryOf_eq, ← hmodule.modulesOf_eq]
    exact ModulePath.ofFile_eq hmodule.source_not_mem hparts
  have hmoduleNames : ∀ name ∈ library :: names, IsModuleName name :=
    List.forall_mem_cons.2 ⟨hsources.isModuleName, hmodule.isModuleName⟩
  -- the segments of the module path are the names again, so that the file is among those of the path
  obtain ⟨p, hp, hpFile⟩ := Locating.exists_mem_exact hsources hmodule hparts hfile
  have hmem : p ∈ tier := by
    rwa [← Locating.segments_join (List.cons_ne_nil _ _) hmoduleNames, ← hjoin] at hp
  have htier : tier ≠ [] := List.ne_nil_of_mem hmem
  have hinside : ModulePath.isExternal module = false := by
    rw [hjoin]
    exact ModulePath.isExternal_join hsources.isModuleName.not_colon hsources.not_standard names
  have hfound : found = Locating.distinct tier :=
    locate_of_exactFiles hinside htier
  obtain ⟨q, hq, hsame⟩ := Locating.exists_mem_distinct hmem
  have hfile : q.same file = true := beq_iff_eq.2 (hsame.trans hpFile)
  have honce : found.Pairwise fun p q => p.same q = false := by
    rw [hfound]
    exact Locating.pairwise_distinct tier
  rw [← hfound] at hq
  exact ⟨hjoin, htier, hfound, ⟨q, hq, hfile⟩, honce⟩

end Locator

/-! ## A workspace with two members -/

namespace Workspace

/-- The directory of the workspace. -/
def home : FilePath := ⟨"work/"⟩

/-- A library that imports a type from a module of it. -/
def libraryText : String := "mod billing;\nuse crate::billing::Money;\npub struct Order { pub total: Money }"

def billingText : String := "pub struct Money { pub cents: u64 }"

/-- The package of the library, whose module lies in a directory. -/
def package : FileTree := .directory [("src", .directory [
  ("billing", .directory [("mod.rs", .ofText billingText)]), ("lib.rs", .ofText libraryText)])]

/-- Two members with the same sources. -/
def files : Files where
  root := .directory [("work", .directory [("crates", .directory [
    ("core", package), ("shared-types", package)])])]
  start := []

/-- The file of the module of a member. -/
def billing : FilePath := ⟨"work/crates/./shared-types/src/billing/mod.rs"⟩

end Workspace

namespace Locator

open Workspace

/-- The module path of the file names the library with an underscore, and leads back to the file. -/
theorem locate_ofFile_billing :
    PackageSources ["crates", "shared-types"] "shared_types" ∧ HoldsModule ["billing", "mod.rs"] ["billing"] ∧
      billing.same ((["crates", "shared-types"] ++ "src" :: ["billing", "mod.rs"]).foldl FilePath.below
        home) = true ∧
      files.isFile billing = true ∧ ModulePath.ofFile home billing = "shared_types::billing" ∧
      ∃ p ∈ (locate { root := home } files (ModulePath.ofFile home billing)).1, p.same billing = true := by
  have hlibrary : Locating.normalized "shared-types" = "shared_types" := by decide +kernel
  -- The member is written with a hyphen and looked up with an underscore.
  have hsources : PackageSources ["crates", "shared-types"] "shared_types" :=
    hlibrary ▸ .member ⟨by decide, by decide, by decide⟩
  have hmodule : HoldsModule ["billing", "mod.rs"] ["billing"] :=
    @HoldsModule.directory ["billing"] (by decide) (by decide) (by decide)
  have hpath : billing.same ((["crates", "shared-types"] ++ "src" :: ["billing", "mod.rs"]).foldl
      FilePath.below home) = true := by decide +kernel
  have hfile : files.isFile billing = true := by decide +kernel
  obtain ⟨hjoin, -, -, hfound, -⟩ := locate_ofFile files home hsources hmodule hpath hfile
  exact ⟨hsources, hmodule, hpath, hfile, hjoin, hfound⟩

end Locator

end PayloadSchema
