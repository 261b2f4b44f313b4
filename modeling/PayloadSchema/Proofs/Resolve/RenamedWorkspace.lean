import PayloadSchema.Proofs.Files.Layout
import PayloadSchema.Proofs.Resolve.ImportRenaming
import PayloadSchema.Proofs.Resolve.Memory
import PayloadSchema.Proofs.Source.Comparison

/-!
# Resolving in a workspace with a renamed import

An import is given a new name in a file, and the file and a type expression use it in the place of the old
one (`RenamedImport.Renames`). The expression is then described as a type of the same kind, and of the same
identity unless the old name is in the text of a type that has no schema. So is everything that the type leads
to. A path may also lead through the import without its name at the beginning, by the place of the file or by
an import of another file. Such paths are not renamed, and for them the old name is gone. A type of another
library that is well-known is so by its own name only.

* `RenamedImport.Between.of_sameLayout` — what the two workspaces answer;
* `RenamedImport.resolve_renamed` — the two descriptions of a type;
* `RenamedImport.not_resolve_renamed` — a well-known type that is not found under a new name.
-/

namespace PayloadSchema

open Source (SourceFile TypeExpr)

/-! ## Rewriting a file -/

/-- A text that reads as a source file. -/
def FileContent.ReadsAs (content : FileContent) (source : SourceFile) : Prop :=
  ∃ text, content.text = some text ∧ SourceFile.ofText? text = some source

/-- A content that reads as a source makes the file read as this source. -/
theorem FileContent.ReadsAs.ofFile {files : Files} {file : FilePath} {content : FileContent} {source : SourceFile}
    (h : content.ReadsAs source) (hcontent : files.content? file = some content) :
    Source.ofFile files file = .ok source := by
  obtain ⟨text, htext, hsource⟩ := h
  refine Source.ofFile_of_text? ?_ hsource
  unfold Files.text?
  rw [hcontent, Option.bind_some, htext]

/-- The scope of a file that can be read. -/
theorem Files.scope_view {files : Files} {file : FilePath} {source : SourceFile} (root : FilePath)
    (h : Source.ofFile files file = .ok source) :
    (files.view root).scope file = .ok (.ofSource root file source) := by
  show FileScope.ofFile files root file = _
  rw [FileScope.ofFile, h]
  rfl

/-- A file stays as it is, or it has the import and is rewritten with the new name; the lines that declare
modules and name packages stay. -/
inductive RenamedImport.Rewrites (c : RenamedImport) : FileContent → FileContent → Prop where
  | same (content : FileContent) : Rewrites c content content
  | renamed {content content' : FileContent} (h : content.ReadsAs c.source) (h' : content'.ReadsAs c.renamed)
    (hlines : content.SameLines content') : Rewrites c content content'

/-- A text that reads as the file with the import may be rewritten as one with the new name. -/
theorem FileTree.SameShape.rewrites_ofText {c : RenamedImport} {text text' : String}
    (h : SourceFile.ofText? text = some c.source) (h' : SourceFile.ofText? text' = some c.renamed)
    (hmodules : (Text.lineStarts text'.toList).flatMap moduleOpening = (Text.lineStarts text.toList).flatMap moduleOpening)
    (hpackage : (Text.lineStarts text'.toList).findSome? Locating.nameLine? =
      (Text.lineStarts text.toList).findSome? Locating.nameLine?) :
    (FileTree.ofText text).SameShape c.Rewrites (.ofText text') :=
  .file (.renamed ⟨text, rfl, h⟩ ⟨text', rfl, h'⟩ ⟨anyLine_moduleDeclaration_congr hmodules, hpackage⟩)

namespace RenamedImport

variable {c : RenamedImport} {files files' : Files} {root file : FilePath}

/-- A rewritten content has lines if and only if the other has. -/
theorem Rewrites.sameLines {content content' : FileContent} (h : c.Rewrites content content') :
    content.SameLines content' := by
  cases h with
  | same => exact .refl content
  | renamed _ _ hlines => exact hlines

/-- Two readings of the file are all that changes if the files are the same elsewhere. -/
theorem Changes.of_ofFile (hfile : Source.ofFile files file = .ok c.source)
    (hfile' : Source.ofFile files' file = .ok c.renamed) : c.Changes root (files.view root) (files'.view root) file where
  source := hfile
  renamed := hfile'
  scope := Files.scope_view root hfile
  renamedScope := Files.scope_view root hfile'

/-- Of workspaces of one layout, in the second of which files are rewritten, the first one answers as before,
and the second one with the new name. -/
theorem Between.of_sameLayout (h : files.SameLayout c.Rewrites files') (root : FilePath) :
    c.Between root (files.view root) (files'.view root) where
  locate_eq := h.locate_eq (fun _ _ => Rewrites.sameLines) root
  answers file := by
    -- a file of the same content answers as before; one that was rewritten is one with the import
    have hcontent := h.content? file
    have hstays (heq : files'.content? file = files.content? file) :
        (files'.view root).source file = (files.view root).source file ∧
          (files'.view root).scope file = (files.view root).scope file := by
      have hsource : Source.ofFile files' file = Source.ofFile files file := by
        unfold Source.ofFile
        rw [heq]
      refine ⟨hsource, ?_⟩
      show FileScope.ofFile files' root file = FileScope.ofFile files root file
      rw [FileScope.ofFile, FileScope.ofFile, hsource]
    generalize hfound : files.content? file = found, hfound' : files'.content? file = found' at hcontent
    cases hcontent with
    | none => exact .inl (hstays (hfound'.trans hfound.symm))
    | some hrewrites =>
        cases hrewrites with
        | same => exact .inl (hstays (hfound'.trans hfound.symm))
        | renamed h h' =>
            have hsource := h.ofFile hfound
            have hrenamed := h'.ofFile hfound'
            exact .inr (.of_ofFile hsource hrenamed)

end RenamedImport

/-! ## Outcomes -/

/-- Outcomes that are descriptors that are related, or that both fail since a type is unresolved, or since it
has no schema. -/
inductive SameResult (R : Descriptor SourceType → Descriptor SourceType → Prop) :
    Except Failure (Descriptor SourceType) → Except Failure (Descriptor SourceType) → Prop where
  | ok {d d' : Descriptor SourceType} (h : R d d') : SameResult R (.ok d) (.ok d')
  | notFound (what what' : String) : SameResult R (.error (.notFound what)) (.error (.notFound what'))
  | unsupportedShape (what what' : String) :
      SameResult R (.error (.unsupportedShape what)) (.error (.unsupportedShape what'))

/-- Results that are the same are both there or both missing. -/
theorem SameResult.isSome_eq {R : Descriptor SourceType → Descriptor SourceType → Prop}
    {x y : Except Failure (Descriptor SourceType)} (h : SameResult R x y) :
    x.toOption.isSome = y.toOption.isSome := by
  cases h <;> rfl

/-- Whether a written type has a schema, and if not why, is a matter of the kind of what is behind it. -/
theorem outcome_cases (d : Descriptor SourceType) :
    (∃ unresolved reason, d.shape.kind = .unsupported unresolved ∧
      outcome d = .error (if unresolved then .notFound reason else .unsupportedShape reason)) ∨
    ((∀ unresolved, d.shape.kind ≠ .unsupported unresolved) ∧ outcome d = .ok d) := by
  obtain ⟨identity, shape, description⟩ := d
  cases shape with
  | unsupported reason => exact .inl ⟨_, reason, rfl, rfl⟩
  | _ => exact .inr ⟨fun _ => Kind.noConfusion, rfl⟩

/-- Descriptors of one kind are given back as the same result. -/
theorem outcome_sameResult {R : Descriptor SourceType → Descriptor SourceType → Prop}
    {d d' : Descriptor SourceType} (hkind : d.shape.kind = d'.shape.kind) (h : R d d') :
    SameResult R (outcome d) (outcome d') := by
  -- the kind says whether there is a schema, so that both are failures of one sort or neither is one
  rcases outcome_cases d with ⟨unresolved, reason, hd, houtcome⟩ | ⟨hd, houtcome⟩
  · rcases outcome_cases d' with ⟨unresolved', reason', hd', houtcome'⟩ | ⟨hd', -⟩
    · rw [hd, hd'] at hkind
      cases hkind
      rw [houtcome, houtcome']
      cases unresolved with
      | true => exact .notFound reason reason'
      | false => exact .unsupportedShape reason reason'
    · exact absurd (hkind.symm.trans hd) (hd' unresolved)
  · rcases outcome_cases d' with ⟨unresolved, -, hd', -⟩ | ⟨-, houtcome'⟩
    · exact absurd (hkind.trans hd') (hd unresolved)
    · rw [houtcome, houtcome']
      exact .ok h

/-- A type expression is described as what is behind the reference that it becomes. -/
theorem resolveExpression_under {v : View} {file : FilePath} {scope : FileScope} {text : String}
    {type : TypeExpr} (hscope : v.scope file = .ok scope) (htext : TypeExpr.ofText? text = some type) :
    (resolveExpression file text).under v = outcome (((scope.walk [] type).under v).fetch.under v) := by
  unfold resolveExpression
  rw [htext]
  dsimp only
  rw [Asking.under_bind, Asking.under_scopeOf, hscope]
  dsimp only
  rw [Asking.under_bind, Asking.under_bind, Asking.under_pure]

/-! ## Spellings of paths -/

section

variable {files files' : Files} {root : FilePath}

/-- Reasons that differ in the spelling of a path only say the same. -/
theorem SameReason.sameSense {reason reason' : String} (h : SameReason files reason reason') :
    SameSense reason reason' := by
  rcases h with rfl | ⟨f, f', -, rfl, rfl⟩
  · rfl
  · unfold SameSense
    rw [f.not_startsWith_message, f'.not_startsWith_message]

/-- Of failures that are alike, both or none say that something was not found. -/
theorem Failure.Alike.notFound_iff {f f' : Failure} (h : f.Alike files f') :
    (∃ what, f = .notFound what) ↔ ∃ what, f' = .notFound what := by
  cases h <;> simp [Failure.notDeclared]

/-- Of failures that are alike, both or none say that a shape is not supported. -/
theorem Failure.Alike.unsupportedShape_iff {f f' : Failure} (h : f.Alike files f') :
    (∃ what, f = .unsupportedShape what) ↔ ∃ what, f' = .unsupportedShape what := by
  cases h <;> simp [Failure.notDeclared]

/-- How the paths of files are spelled in two workspaces does not count for what is related. -/
theorem SameResult.of_alike {R R' : Descriptor SourceType → Descriptor SourceType → Prop}
    {x y y' x' : Except Failure (Descriptor SourceType)}
    (hx : SameOutcome files (Descriptor.Alike files root) x y) (h : SameResult R y y')
    (hx' : SameOutcome files' (Descriptor.Alike files' root) y' x')
    (hR : ∀ d e e' d', d.Alike files root e → R e e' → e'.Alike files' root d' → R' d d') :
    SameResult R' x x' := by
  -- Likeness keeps a success a success and a failure of its kind, so three results compose case by case.
  cases h with
  | ok h =>
      cases hx with
      | ok hd =>
          cases hx' with
          | ok hd' => exact .ok (hR _ _ _ _ hd h hd')
  | notFound what what' =>
      cases hx with
      | error hf =>
          cases hx' with
          | error hf' =>
              obtain ⟨_, rfl⟩ := hf.notFound_iff.2 ⟨what, rfl⟩
              obtain ⟨_, rfl⟩ := hf'.notFound_iff.1 ⟨what', rfl⟩
              exact .notFound _ _
  | unsupportedShape what what' =>
      cases hx with
      | error hf =>
          cases hx' with
          | error hf' =>
              obtain ⟨_, rfl⟩ := hf.unsupportedShape_iff.2 ⟨what, rfl⟩
              obtain ⟨_, rfl⟩ := hf'.unsupportedShape_iff.1 ⟨what', rfl⟩
              exact .unsupportedShape _ _

/-- Descriptors that are alike have one identity. -/
theorem Descriptor.Alike.identity_eq {d d' : Descriptor SourceType} (h : d.Alike files root d') :
    d.identity = d'.identity := by
  cases h
  rfl

variable {exact : Prop}

/-- The kind is the same whatever spelling of a file is asked for. -/
theorem Descriptor.SameKind.of_alike {d e e' d' : Descriptor SourceType} (hd : d.Alike files root e)
    (h : e.SameKind exact e') (hd' : e'.Alike files' root d') : d.SameKind exact d' where
  identity hexact := hd.identity_eq.trans ((h.identity hexact).trans hd'.identity_eq)
  kind := by
    have hkind := hd.shape.kind_eq fun _ _ => SameReason.sameSense
    have hkind' := hd'.shape.kind_eq fun _ _ => SameReason.sameSense
    exact hkind.trans (h.kind.trans hkind')

/-- Descriptors stay renamed whatever spelling of a file is asked for. -/
theorem Descriptor.Renamed.of_alike {R R' : SourceType → SourceType → Prop} {d e e' d' : Descriptor SourceType}
    (hd : d.Alike files root e) (h : e.Renamed exact R e') (hd' : e'.Alike files' root d')
    (hR : ∀ t u u' t', t.Alike files root u → R u u' → u'.Alike files' root t' → R' t t') :
    d.Renamed exact R' d' where
  identity hexact := hd.identity_eq.trans ((h.identity hexact).trans hd'.identity_eq)
  description := hd.description_eq.trans (h.description.trans hd'.description_eq)
  shape := by
    refine ((hd.shape.comp h.shape).comp hd'.shape).mono ?_ ?_
    · rintro reason reason' ⟨_, ⟨_, hreason, hsense⟩, hreason'⟩
      exact hreason.sameSense.trans (hsense.trans hreason'.sameSense)
    · rintro t t' ⟨u', ⟨u, ht, hu⟩, ht'⟩
      exact hR t u u' t' ht hu ht'

end

/-! ## All the way down -/

/-- References behind which the same types are found so many levels deep, up to the texts of types without a
schema, whatever the two resolvers are asked for before each is loaded; and with the same identities, if they
are to be exact. -/
def SameBelow (exact : Prop) (files files' : Files) (r r' : Resolver) : Nat → SourceType → SourceType → Prop
  | 0, t, t' => exact → t.identity = t'.identity
  | levels + 1, t, t' => (exact → t.identity = t'.identity) ∧ ∀ later later' : List Resolver.Request,
      (t.load ((r.after files later).environment files)).Renamed exact (SameBelow exact files files' r r' levels)
        (t'.load ((r'.after files' later').environment files'))

namespace RenamedImport

variable {c : RenamedImport} {files files' : Files} {root file : FilePath} {exact : Prop} {D : Set Declaration}

/-- Behind references that are renamed, the descriptors are the same over so many levels, whatever was asked
of the resolvers before. -/
theorem Between.sameBelow {r r' : Resolver} (h : c.Between root (files.view root) (files'.view root))
    (hclosed : c.Closed root (files.view root) (files'.view root) D)
    (htexts : exact → c.KeepsAllTexts root (files.view root) (files'.view root) D)
    (hr : r.Honest files root) (hr' : r'.Honest files' root) (levels : Nat) {t u u' t' : SourceType}
    (ht : t.Alike files root u) (hu : u.Renamed exact D u') (ht' : u'.Alike files' root t') :
    SameBelow exact files files' r r' levels t t' := by
  have hidentity (hexact : exact) : t.identity = t'.identity :=
    ht.identity_eq.trans ((hu.identity_eq hexact).trans ht'.identity_eq)
  induction levels generalizing t u u' t' with
  | zero => exact hidentity
  | succ levels ih =>
      refine ⟨hidentity, ?_⟩
      intro later later'
      rw [Resolver.load_environment, Resolver.load_environment]
      -- what is loaded is what the files say up to spelling, on both sides of the renaming
      have hfetched := TypeRef.fetch_alike ht _ _ ((hr.after later).answer t.fetch).1
        (Asking.yields_under files root u.fetch)
      have hfetched' := TypeRef.fetch_alike ht' _ _ (Asking.yields_under files' root u'.fetch)
        ((hr'.after later').answer t'.fetch).1
      have hrenamed := h.fetch_renamed hclosed htexts hu
      refine .of_alike hfetched hrenamed hfetched' ?_
      intro t u u' t' ht hu ht'
      have hidentity (hexact : exact) : t.identity = t'.identity :=
        ht.identity_eq.trans ((hu.identity_eq hexact).trans ht'.identity_eq)
      exact ih ht hu ht' hidentity

/-- Two workspaces, in the second of which an import is given a new name in a file, and a type expression for
each, in the second of which the new name stands in the place of the old one. -/
structure Renames (c : RenamedImport) (files files' : Files) (file : FilePath) (text text' : String)
    (type : TypeExpr) : Prop where
  layout : files.SameLayout c.Rewrites files'
  source : Source.ofFile files file = .ok c.source
  renamed : Source.ofFile files' file = .ok c.renamed
  text : TypeExpr.ofText? text = some type
  renamedText : TypeExpr.ofText? text' = some (type.rename c.replace)
  unused : ∀ names ∈ type.paths, names.head? ≠ some c.newName

/-- **Renaming an import.** An import is given a new name that its file does not use, and that takes the place
of the old one in the file and in a type expression. No path of the expression leads through the import in any
other way than by its name. Then the expression is described as a type of the same kind, or fails alike, and
if the old name is in no text of a type without a schema, it has the same identity. So is everything that the
type leads to, if no path there leads through the import in another way. What the resolvers were asked for
before does not count. -/
theorem resolve_renamed {text text' : String} {type : TypeExpr} {path : String}
    (h : c.Renames files files' file text text' type) (hfits : c.Fits root file path)
    (hclear : ∀ names ∈ type.paths,
      c.Clear root (files.view root) (files'.view root) (c.scope root file) names)
    (past past' : List Resolver.Request) :
    let v := files.view root
    let v' := files'.view root
    let keeps := FileScope.KeepsTexts c.replace ((c.scope root file).texts v type)
    let asked := Resolver.answer files (resolveExpression file text) ((Resolver.ofRoot root).after files past)
    let renamed := Resolver.answer files' (resolveExpression file text') ((Resolver.ofRoot root).after files' past')
    SameResult (Descriptor.SameKind keeps) asked.1 renamed.1 ∧
    ∀ D, c.Closed root v v' D → c.Leads root v v' D (c.scope root file) type →
      let keepsAll := keeps ∧ c.KeepsAllTexts root v v' D
      ∀ levels, SameResult (Descriptor.Renamed keepsAll (SameBelow keepsAll files files' asked.2 renamed.2 levels))
        asked.1 renamed.1 := by
  intro v v' keeps asked renamed
  have hbetween := Between.of_sameLayout h.layout root
  have hchanges : c.Changes root v v' file := .of_ofFile h.source h.renamed
  -- what the resolvers answer is, up to spelling, what the files say
  have hplain : file.saysDirectory = false :=
    Files.saysDirectory_of_isFile (Source.isFile_of_ofFile h.source (by simp))
  obtain ⟨hyields, hasked⟩ := ((Resolver.honest_ofRoot files root).after past).answer (resolveExpression file text)
  obtain ⟨hyields', hrenamed⟩ :=
    ((Resolver.honest_ofRoot files' root).after past').answer (resolveExpression file text')
  have hspelled := resolveExpression_alike hplain text _ _ hyields (Asking.yields_under files root _)
  have hspelled' := resolveExpression_alike hplain text' _ _ (Asking.yields_under files' root _) hyields'
  rw [resolveExpression_under hchanges.scope h.text] at hspelled
  rw [resolveExpression_under hchanges.renamedScope h.renamedText] at hspelled'
  have hwalk (D : Set Declaration) (exact : Prop) (hexact : exact → keeps)
      (hleads : c.Leads root v v' D (c.scope root file) type) :
      (((c.scope root file).walk [] type).under v).Renamed exact D
        (((c.renamedScope root file).walk [] (type.rename c.replace)).under v') := by
    have hkeeps : FileScope.Keeps exact D (c.scope root file) (c.renamedScope root file) v v' c.replace type :=
      hbetween.keeps_renamed hfits h.unused hleads hexact
    exact FileScope.walk_rename .nil (fun _ _ => ⟨rfl, rfl⟩) type hkeeps.meaning hkeeps.texts
  constructor
  · -- the kind does not depend on what the type leads to, so every declaration may be among the renamed ones
    have hleads : c.Leads root v v' Set.univ (c.scope root file) type :=
      ⟨hclear, fun _ _ d _ => Set.mem_univ d⟩
    have hkind := hbetween.fetch_sameKind (hwalk Set.univ keeps id hleads)
    have hresult := outcome_sameResult hkind.kind hkind
    exact .of_alike hspelled hresult hspelled' fun _ _ _ _ => .of_alike
  · intro D hclosed hleads keepsAll levels
    have ht := hwalk D keepsAll And.left hleads
    have hfetched := hbetween.fetch_renamed hclosed And.right ht
    have hresult := outcome_sameResult (hfetched.shape.kind_eq fun _ _ => id) hfetched
    refine .of_alike hspelled hresult hspelled' ?_
    intro d e e' d' hd he hd'
    refine .of_alike hd he hd' ?_
    intro t u u' t' ht hu ht'
    exact hbetween.sameBelow hclosed And.right hasked hrenamed levels ht hu ht'

end RenamedImport

/-! ## A book and its pages -/

namespace Book

/-- A library in which a book has pages of a module. -/
def text : String := "use crate::m::Page;\nstruct Book \x7b pages: Vec<Page> \x7d\nmod m;"

/-- The library with a new name for a page. -/
def renamedText : String := "use crate::m::Page as Sheet;\nstruct Book \x7b pages: Vec<Sheet> \x7d\nmod m;"

def moduleText : String := "struct Page \x7b number: u32 \x7d"

/-- The library with a text, and its module. -/
def workspace (text : String) : Files := .ofSources [("lib.rs", text), ("m.rs", moduleText)]

def home : FilePath := ⟨""⟩

def libraryPath : FilePath := ⟨"src/lib.rs"⟩

def modulePath : FilePath := ⟨"src/m.rs"⟩

def named (name : String) : TypeExpr := .path false ⟨false, [{ name }]⟩

/-- A name with arguments as a type. -/
def applied (name : String) (types : List TypeExpr) : TypeExpr := .path false ⟨false, [{ name, style := .angled, types }]⟩

def structOf (name field : String) (type : TypeExpr) : Source.Item :=
  .struct ⟨[], name, [], .named [⟨[], field, type⟩]⟩

def page : RenamedImport where
  before := []
  after := [structOf "Book" "pages" (applied "Vec" [named "Page"]), .module "m"]
  way := ["crate", "m"]
  name := "Page"
  newName := "Sheet"
  plain := by decide
  newPlain := by decide
  ne := by decide
  proper := by decide
  only := by decide +kernel
  undeclared := by decide +kernel
  unbound := by decide +kernel
  unused := by decide +kernel

def module : SourceFile := ⟨[structOf "Page" "number" (named "u32")]⟩

/-- A library with a text reads as a file with an import, and with another text as the file with the new name;
the same lines declare modules and name packages. -/
structure Rewritten (c : RenamedImport) (text text' : String) : Prop where
  reads : (workspace text).text? libraryPath = some text
  source : SourceFile.ofText? text = some c.source
  rereads : (workspace text').text? libraryPath = some text'
  renamed : SourceFile.ofText? text' = some c.renamed
  modules : (Text.lineStarts text'.toList).flatMap moduleOpening = (Text.lineStarts text.toList).flatMap moduleOpening
  package : (Text.lineStarts text'.toList).findSome? Locating.nameLine? =
    (Text.lineStarts text.toList).findSome? Locating.nameLine?

instance (c : RenamedImport) (text text' : String) : Decidable (Rewritten c text text') :=
  decidable_of_iff
    (((workspace text).text? libraryPath = some text ∧ SourceFile.ofText? text = some c.source) ∧
      ((workspace text').text? libraryPath = some text' ∧ SourceFile.ofText? text' = some c.renamed) ∧
      (Text.lineStarts text'.toList).flatMap moduleOpening = (Text.lineStarts text.toList).flatMap moduleOpening ∧
      (Text.lineStarts text'.toList).findSome? Locating.nameLine? =
        (Text.lineStarts text.toList).findSome? Locating.nameLine?)
    ⟨fun ⟨⟨ht, hs⟩, ⟨ht', hs'⟩, hm, hp⟩ => ⟨ht, hs, ht', hs', hm, hp⟩,
      fun ⟨ht, hs, ht', hs', hm, hp⟩ => ⟨⟨ht, hs⟩, ⟨ht', hs'⟩, hm, hp⟩⟩

/-- A rewritten text and expression make a renaming of the whole workspace. -/
theorem Rewritten.renames {c : RenamedImport} {text text' expression expression' : String} {type : TypeExpr}
    (h : Rewritten c text text') (hexpression : TypeExpr.ofText? expression = some type)
    (hexpression' : TypeExpr.ofText? expression' = some (type.rename c.replace))
    (hunused : ∀ names ∈ type.paths, names.head? ≠ some c.newName) :
    c.Renames (workspace text) (workspace text') libraryPath expression expression' type where
  layout := by
    refine .ofSources (.cons (.intro "lib.rs" ?_) (.cons (.intro "m.rs" (.refl .same _)) .nil))
    exact .rewrites_ofText h.source h.renamed h.modules h.package
  source := Source.ofFile_of_text? h.reads h.source
  renamed := Source.ofFile_of_text? h.rereads h.renamed
  text := hexpression
  renamedText := hexpression'
  unused := hunused

theorem rewritten_page : Rewritten page text renamedText := by
  decide +kernel

/-- The answers that the files of the library with a text give. -/
abbrev viewOf (text : String) : View := (workspace text).view home

theorem ofFile_text : Source.ofFile (workspace text) libraryPath = .ok page.source :=
  Source.ofFile_of_text? rewritten_page.reads rewritten_page.source

theorem ofFile_module : Source.ofFile (workspace text) modulePath = .ok module := by
  have htext : (workspace text).text? modulePath = some moduleText ∧ SourceFile.ofText? moduleText = some module := by
    decide +kernel
  exact Source.ofFile_of_text? htext.1 htext.2

theorem fits : page.Fits home libraryPath "crate::m::Page" where
  canonical := by decide +kernel
  library := by decide +kernel
  unknown := .inl (by decide +kernel)

/-- The path of the page opens the module. -/
theorem opens_page {name : String} {scope : FileScope} (h : (viewOf text).Opens "crate::m::Page" name scope) :
    scope = .ofSource home modulePath module := by
  obtain ⟨path, hcut, -, file, hfile, hscope⟩ := h
  have hpath : Segments.cutLast? "crate::m::Page" = some ("crate::m", "Page") := by decide +kernel
  rw [hpath] at hcut
  cases hcut
  have hlocate : (viewOf text).locate "crate::m" = [modulePath] := by decide +kernel
  rw [hlocate, List.mem_singleton] at hfile
  subst hfile
  exact Except.ok.inj (hscope.symm.trans (Files.scope_view home ofFile_module))

/-- The module is not the file with the import, and imports nothing, so that no chain leads on from the page. -/
theorem clear_of_targets {scope : FileScope} {names : List String}
    (h : ∀ target ∈ scope.targets names, target = "crate::m::Page") :
    page.Clear home (viewOf text) (viewOf renamedText) scope names := by
  intro target htarget k hk next hchain
  rw [h target htarget] at hchain
  -- a chain ends at the page, or begins with an import of the module, which has none
  cases hchain with
  | refl =>
      rintro ⟨name, file, -, hopens, -⟩
      have hdeclared : (page.scope home file).declared = (FileScope.ofSource home modulePath module).declared :=
        congrArg FileScope.declared (opens_page hopens)
      revert hdeclared
      show ¬ (page.scope home libraryPath).declared = _
      decide +kernel
  | head himport _ =>
      obtain ⟨name, scope, hopens, hfound⟩ := himport
      rw [opens_page hopens] at hfound
      have himports : (FileScope.ofSource home modulePath module).imports = {} := rfl
      rw [himports] at hfound
      rcases hfound with ⟨hfind, -⟩ | ⟨glob, hglob, -⟩
      · cases hfind
      · cases hglob

def declarations : List Declaration := [⟨libraryPath, "crate", "Book"⟩, ⟨modulePath, "crate::m", "Page"⟩]

/-- Whether names mean none but the two declarations. -/
def isKnown : Meaning → Bool
  | .declared d => declarations.contains d
  | _ => true

/-- In the example, paths that lead anywhere lead to the page. -/
theorem leads {scope : FileScope} {type : TypeExpr}
    (h : ∀ names ∈ type.paths, (∀ target ∈ scope.targets names, target = "crate::m::Page") ∧
      isKnown (scope.meaning (viewOf text) names) = true) :
    page.Leads home (viewOf text) (viewOf renamedText) {d | d ∈ declarations} scope type where
  clear names hnames := clear_of_targets (h names hnames).1
  declared names hnames d hd := by
    have hknown := (h names hnames).2
    rw [hd] at hknown
    exact List.contains_iff_mem.1 hknown

/-- The types in the two declarations lead to no other ones. -/
theorem closed : page.Closed home (viewOf text) (viewOf renamedText) {d | d ∈ declarations} where
  fits d hd hchanges := by
    -- Two declarations are met: the one in the renamed file, and the one it imports.
    rcases List.mem_pair.1 hd with rfl | rfl
    · exact ⟨_, fits⟩
    · have hsource : Except.ok module = Except.ok page.source := ofFile_module.symm.trans hchanges.source
      have hitems : module.items.length = page.source.items.length :=
        congrArg (fun source => source.items.length) (Except.ok.inj hsource)
      exact absurd hitems (by decide)
  leads d hd source scope item hsource hscope hitem type htype := by
    rcases List.mem_pair.1 hd with rfl | rfl
    · have hread : source = page.source := Except.ok.inj (hsource.symm.trans ofFile_text)
      have hheld : scope = page.scope home libraryPath :=
        Except.ok.inj (hscope.symm.trans (Files.scope_view home ofFile_text))
      rw [hread] at hitem
      cases hitem
      rw [hheld, List.mem_singleton.1 htype]
      exact leads (by decide +kernel)
    · have hread : source = module := Except.ok.inj (hsource.symm.trans ofFile_module)
      have hheld : scope = .ofSource home modulePath module :=
        Except.ok.inj (hscope.symm.trans (Files.scope_view home ofFile_module))
      rw [hread] at hitem
      cases hitem
      rw [hheld, List.mem_singleton.1 htype]
      exact leads (by decide +kernel)

def table : TypeExpr := applied "HashMap" [named "Book", named "Page"]

/-- The name of the page is in no text of a type without a schema. -/
theorem keepsAll :
    FileScope.KeepsTexts page.replace ((page.scope home libraryPath).texts (viewOf text) table) ∧
      page.KeepsAllTexts home (viewOf text) (viewOf renamedText) {d | d ∈ declarations} := by
  refine ⟨by unfold FileScope.KeepsTexts; decide +kernel, ?_⟩
  intro d hd hchanges item hitem type htype
  rcases List.mem_pair.1 hd with rfl | rfl
  · cases hitem
    rw [List.mem_singleton.1 htype]
    unfold FileScope.KeepsTexts
    decide +kernel
  · cases hitem

/-- A well-known type of the standard library, which is all that a file has. -/
def instant : RenamedImport where
  before := []
  after := []
  way := ["std", "time"]
  name := "SystemTime"
  newName := "Moment"
  plain := by decide +kernel
  newPlain := by decide +kernel
  ne := by decide
  proper := by decide
  only _ h := absurd h List.not_mem_nil
  undeclared _ h := absurd h List.not_mem_nil
  unbound _ h := absurd h List.not_mem_nil
  unused _ h := absurd h List.not_mem_nil

end Book

namespace RenamedImport

open Book

/-- A table of pages by books is described in the same way all the way down, also if the book was described
before. -/
theorem resolve_renamed_table :
    let v := viewOf text
    let v' := viewOf renamedText
    let keeps := FileScope.KeepsTexts page.replace ((page.scope home libraryPath).texts v table)
    let keepsAll := keeps ∧ page.KeepsAllTexts home v v' {d | d ∈ declarations}
    let past : List Resolver.Request := [.resolve (.declared libraryPath "Book")]
    let asked := Resolver.answer (workspace text) (resolveExpression libraryPath "HashMap<Book, Page>")
      ((Resolver.ofRoot home).after (workspace text) past)
    let renamed := Resolver.answer (workspace renamedText) (resolveExpression libraryPath "HashMap<Book, Sheet>")
      ((Resolver.ofRoot home).after (workspace renamedText) [])
    keepsAll ∧ asked.1.toOption.map (·.identity) = some "Map<crate::Book, crate::m::Page>" ∧
      SameResult (Descriptor.SameKind keeps) asked.1 renamed.1 ∧
      ∀ levels, SameResult (Descriptor.Renamed keepsAll
        (SameBelow keepsAll (workspace text) (workspace renamedText) asked.2 renamed.2 levels)) asked.1 renamed.1 := by
  intro v v' keeps keepsAll past asked renamed
  have hleads : page.Leads home v v' {d | d ∈ declarations} (page.scope home libraryPath) table :=
    leads (by decide +kernel)
  -- Both texts are small, and reading them is left to evaluation.
  have htable : page.Renames (workspace text) (workspace renamedText) libraryPath "HashMap<Book, Page>"
      "HashMap<Book, Sheet>" table :=
    rewritten_page.renames (by decide +kernel) (by decide +kernel) (by decide +kernel)
  obtain ⟨hkind, hbelow⟩ := resolve_renamed htable fits hleads.clear past []
  exact ⟨Book.keepsAll, by decide +kernel, hkind, hbelow _ closed hleads⟩

/-- Not every renaming goes unseen: a type of another library is well-known by its own name only, so that under
a new name it is not found. -/
theorem not_resolve_renamed :
    instant.Renames (workspace "use std::time::SystemTime;") (workspace "use std::time::SystemTime as Moment;")
        libraryPath "SystemTime" "Moment" (named "SystemTime") ∧
      ¬ SameResult (Descriptor.SameKind False)
        (Resolver.answer (workspace "use std::time::SystemTime;") (resolveExpression libraryPath "SystemTime")
          (.ofRoot home)).1
        (Resolver.answer (workspace "use std::time::SystemTime as Moment;") (resolveExpression libraryPath "Moment")
          (.ofRoot home)).1 := by
  have hrewritten : Rewritten instant "use std::time::SystemTime;" "use std::time::SystemTime as Moment;" := by
    decide +kernel
  refine ⟨hrewritten.renames (by decide +kernel) (by decide +kernel) (by decide +kernel), ?_⟩
  intro hsame
  -- one of the two outcomes is a descriptor, the other one is a failure
  have hthere := hsame.isSome_eq
  revert hthere
  decide +kernel

end RenamedImport

end PayloadSchema
