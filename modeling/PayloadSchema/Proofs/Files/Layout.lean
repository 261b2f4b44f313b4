import PayloadSchema.Proofs.Descriptor.Relation
import PayloadSchema.Proofs.Files.Spelling
import PayloadSchema.Resolve.Resolver

/-!
# Files of one layout

Two workspaces have one layout if they have the same directories with files of the same names
(`Files.SameLayout`). Which files a module has depends on the layout, and on what is written in the files only
by the lines that declare modules and those that name packages (`FileContent.SameLines`).

* `Files.SameLayout.find` — what one path leads to;
* `Files.SameLayout.locate_eq` — the files of a module.
-/

namespace PayloadSchema

/-- Values that are related under one name. -/
inductive SameEntry {σ τ : Type} (R : σ → τ → Prop) : String × σ → String × τ → Prop where
  | intro (name : String) {a : σ} {b : τ} (h : R a b) : SameEntry R (name, a) (name, b)

/-- Trees of one shape, with contents that are related at each place. -/
inductive FileTree.SameShape (R : FileContent → FileContent → Prop) : FileTree → FileTree → Prop where
  | file {content content' : FileContent} (h : R content content') : SameShape R (.file content) (.file content')
  | directory {entries entries' : List (String × FileTree)}
    (h : List.Forall₂ (SameEntry (SameShape R)) entries entries') :
    SameShape R (.directory entries) (.directory entries')

/-- Workspaces of one layout, with contents that are related at each place. -/
structure Files.SameLayout (R : FileContent → FileContent → Prop) (files files' : Files) : Prop where
  root : files.root.SameShape R files'.root
  start : files'.start = files.start

variable {R : FileContent → FileContent → Prop}

/-! ## Trees -/

namespace FileTree.SameShape

variable {t t' : FileTree}

theorem isFile_eq (h : t.SameShape R t') : t'.isFile = t.isFile := by
  cases h <;> rfl

theorem entries (h : t.SameShape R t') :
    List.Forall₂ (SameEntry (SameShape R)) t.entries t'.entries := by
  cases h with
  | file _ => exact .nil
  | directory h => exact h

/-- Under each name there are trees of one shape, or none on both sides. -/
theorem find? {entries entries' : List (String × FileTree)}
    (h : List.Forall₂ (SameEntry (SameShape R)) entries entries')
    (name : String) : SameOption (SameShape R) (Dictionary.find? entries name) (Dictionary.find? entries' name) := by
  induction h with
  | nil => exact .none
  | cons hentry _ ih =>
      cases hentry with
      | intro key hinner =>
          rw [Dictionary.find?, Dictionary.find?]
          split
          · exact .some hinner
          · exact ih

mutual
theorem refl (hR : ∀ content, R content content) : ∀ t : FileTree, t.SameShape R t
  | .file content => .file (hR content)
  | .directory entries => .directory (refl_entries hR entries)
theorem refl_entries (hR : ∀ content, R content content) :
    ∀ entries : List (String × FileTree), List.Forall₂ (SameEntry (SameShape R)) entries entries
  | [] => .nil
  | (name, inner) :: entries => .cons (.intro name (refl hR inner)) (refl_entries hR entries)
end

end FileTree.SameShape

namespace Files

variable {files files' : Files}

/-! ## Places -/

/-- One place in two trees of one shape. -/
structure Place.SameShape (R : FileContent → FileContent → Prop) (p p' : Place) : Prop where
  above : List.Forall₂ (SameEntry (FileTree.SameShape R)) p.above p'.above
  here : p.here.SameShape R p'.here

namespace Place.SameShape

variable {p p' : Place}

/-- Places of one shape have children of one shape. -/
theorem child (h : p.SameShape R p') (name : String) :
    SameExcept (Place.SameShape R) (p.child name) (p'.child name) := by
  obtain ⟨above, here⟩ := p
  obtain ⟨above', here'⟩ := p'
  obtain ⟨habove, hhere⟩ := h
  cases hhere with
  | file hcontent => exact .error _
  | @directory entries entries' hentries =>
      -- Both directories list the same names, so both look-ups find an entry or neither does.
      have hfound := FileTree.SameShape.find? hentries name
      unfold Place.child
      dsimp only
      generalize Dictionary.find? entries name = found, Dictionary.find? entries' name = found' at hfound
      cases hfound with
      | none => exact .error _
      | some hinner => exact .ok ⟨.cons (.intro name (.directory hentries)) habove, hinner⟩

/-- Places of one shape lie in directories of one shape. -/
theorem up (h : p.SameShape R p') : SameExcept (Place.SameShape R) p.up p'.up := by
  obtain ⟨above, here⟩ := p
  obtain ⟨above', here'⟩ := p'
  obtain ⟨habove, hhere⟩ := h
  cases hhere with
  | file hcontent => exact .error _
  | directory hentries =>
      cases habove with
      | nil => exact .ok ⟨.nil, .directory hentries⟩
      | cons hentry hrest =>
          cases hentry with
          | intro _ houter => exact .ok ⟨hrest, houter⟩

end Place.SameShape

/-- One place after another leads on in the same way. -/
theorem foldlM_sameShape {α : Type} {f g : Place → α → Except PathError Place}
    (hstep : ∀ p p' a, p.SameShape R p' → SameExcept (Place.SameShape R) (f p a) (g p' a)) (as : List α)
    {p p' : Place} (h : p.SameShape R p') : SameExcept (Place.SameShape R) (as.foldlM f p) (as.foldlM g p') := by
  induction as generalizing p p' with
  | nil => exact .ok h
  | cons a as ih =>
      rw [List.foldlM_cons, List.foldlM_cons]
      refine (hstep _ _ a h).bind ?_
      intro q q' hq
      exact ih hq

namespace SameLayout

/-- Files that are made of related texts have one layout. -/
theorem ofSources {sources sources' : List (String × String)}
    (h : List.Forall₂ (SameEntry fun text text' => (FileTree.ofText text).SameShape R (.ofText text')) sources sources') :
    SameLayout R (.ofSources sources) (.ofSources sources') where
  root := by
    refine .directory (.cons (.intro "src" (.directory ?_)) .nil)
    rw [List.forall₂_map_left_iff, List.forall₂_map_right_iff]
    refine h.imp ?_
    intro source source' hentry
    cases hentry with
    | intro name htext => exact .intro name htext
  start := rfl

/-- In files of one layout the same parts lead to places of one shape, or to the same failure. -/
theorem reach (h : SameLayout R files files') (parts : List FilePath.Part) :
    SameExcept (Place.SameShape R) (files.reach parts) (files'.reach parts) := by
  have hroot : Place.SameShape R ⟨[], files.root⟩ ⟨[], files'.root⟩ := ⟨.nil, h.root⟩
  have hstart : SameExcept (Place.SameShape R) files.startPlace files'.startPlace := by
    unfold startPlace
    rw [h.start]
    exact foldlM_sameShape (fun _ _ name hp => hp.child name) _ hroot
  refine hstart.bind ?_
  intro p p' hp
  refine foldlM_sameShape ?_ parts hp
  intro p p' part hp
  cases part with
  | root => exact .ok hroot
  | current => exact .ok hp
  | parent => exact hp.up
  | name text => exact hp.child text

/-- One path leads to trees of one shape. -/
theorem find (h : SameLayout R files files') (p : FilePath) :
    SameExcept (FileTree.SameShape R) (files.find p) (files'.find p) := by
  unfold Files.find
  rw [place_eq, place_eq]
  split
  · exact .error _
  · refine SameExcept.bind (R := Place.SameShape R) (f := fun found => pure found.here) ?_ fun _ _ hp => .ok hp.here
    refine (h.reach p.parts).bind ?_
    intro found found' hfound
    -- A file under a path that says directory is not found on either side.
    rw [hfound.here.isFile_eq]
    split
    · exact .error _
    · exact .ok hfound

theorem isFile_eq (h : SameLayout R files files') : files'.isFile = files.isFile := by
  funext p
  have hfind := h.find p
  unfold Files.isFile
  generalize files.find p = found, files'.find p = found' at hfind
  cases hfind with
  | ok ht => exact ht.isFile_eq
  | error e => rfl

theorem isDirectory_eq (h : SameLayout R files files') : files'.isDirectory = files.isDirectory := by
  funext p
  have hfind := h.find p
  unfold Files.isDirectory
  generalize files.find p = found, files'.find p = found' at hfind
  cases hfind with
  | ok ht => exact congrArg not ht.isFile_eq
  | error e => rfl

/-- At one path there are contents that are related, or none. -/
theorem content? (h : SameLayout R files files') (p : FilePath) :
    SameOption R (files.content? p) (files'.content? p) := by
  have hfind := h.find p
  unfold Files.content?
  generalize files.find p = found, files'.find p = found' at hfind
  cases hfind with
  | error e => exact .none
  | ok ht =>
      cases ht with
      | file hcontent => exact .some hcontent
      | directory _ => exact .none

/-! ## Searches -/

/-- What is found near one root lies at the same paths under the same names, and is of one shape. -/
theorem near (h : SameLayout R files files') (root : FilePath) (depth : Nat) :
    List.Forall₂ (fun f f' => f.path = f'.path ∧ f.name = f'.name ∧ f.tree.SameShape R f'.tree)
      (files.near root depth) (files'.near root depth) := by
  have hbelow (depth : Nat) (path : FilePath) (t t' : FileTree) (ht : t.SameShape R t') :
      List.Forall₂ (fun f f' => f.path = f'.path ∧ f.name = f'.name ∧ f.tree.SameShape R f'.tree)
        (below depth path t) (below depth path t') := by
    -- one level at a time: the entries that are not passed over, each with what lies below it
    induction depth generalizing path t t' with
    | zero => exact .nil
    | succ depth ih =>
        rw [below, below]
        refine List.rel_flatMap (List.rel_filter ?_ ht.entries) ?_
        · intro entry entry' hentry
          cases hentry
          rfl
        · intro entry entry' hentry
          cases hentry with
          | intro name hinner => exact .cons ⟨rfl, rfl, hinner⟩ (ih _ _ _ hinner)
  have hfind := h.find root
  unfold Files.near searchRoot?
  generalize files.find root = found, files'.find root = found' at hfind
  cases hfind with
  | error e => exact .nil
  | ok ht => exact .cons ⟨rfl, rfl, ht⟩ (hbelow depth root _ _ ht)

/-- The same directories have a name. -/
theorem directoriesNamed_eq (h : SameLayout R files files') : files'.directoriesNamed = files.directoriesNamed := by
  funext root name
  have hnear := List.forall₂_drop 1 (h.near root searchDepth)
  unfold directoriesNamed
  rw [eq_comm, map_eq_map_iff_forall₂]
  refine (List.rel_filter ?_ hnear).imp fun f f' hf => hf.1
  rintro f f' ⟨-, hname, htree⟩
  unfold FileTree.isDirectory
  beta_reduce
  rw [hname, htree.isFile_eq]

/-- The same files have a name. -/
theorem filesNamed_eq (h : SameLayout R files files') : files'.filesNamed = files.filesNamed := by
  funext root name
  unfold filesNamed
  rw [eq_comm, map_eq_map_iff_forall₂]
  refine (List.rel_filter ?_ (h.near root searchDepth)).imp fun f f' hf => hf.1
  rintro f f' ⟨-, hname, htree⟩
  beta_reduce
  rw [hname, htree.isFile_eq]

end SameLayout

end Files

/-! ## Locating modules -/

open Text Locating

/-- Contents of which the same lines declare modules and name packages. -/
structure FileContent.SameLines (content content' : FileContent) : Prop where
  modules : ∀ name, content'.text.any (anyLine (moduleDeclaration name)) =
    content.text.any (anyLine (moduleDeclaration name))
  package : content'.text.bind (fun text => (lineStarts text.toList).findSome? nameLine?) =
    content.text.bind fun text => (lineStarts text.toList).findSome? nameLine?

/-- How a line that declares a module begins. -/
def moduleOpening : Matcher :=
  .all [.blanks, .optional moduleDeclaration.visibility, .text "mod", .gap]

/-- If what follows on the openings of module declarations is the same, the same modules are declared. -/
theorem anyLine_moduleDeclaration_congr {text text' : String}
    (h : (lineStarts text'.toList).flatMap moduleOpening = (lineStarts text.toList).flatMap moduleOpening)
    (name : String) : anyLine (moduleDeclaration name) text' = anyLine (moduleDeclaration name) text := by
  have hall (matchers matchers' : List Matcher) (cs : List Char) :
      Matcher.all (matchers ++ matchers') cs = (Matcher.all matchers cs).flatMap (Matcher.all matchers') := by
    induction matchers generalizing cs with
    | nil => exact (List.flatMap_singleton _ _).symm
    | cons matcher matchers ih =>
        have hstep (ms : List Matcher) : Matcher.all (matcher :: ms) cs = (matcher cs).flatMap (Matcher.all ms) := rfl
        rw [List.cons_append, hstep, hstep, List.flatMap_assoc]
        exact congrArg (matcher cs).flatMap (funext ih)
  have hlines (matcher : Matcher) (lines : List (List Char)) :
      lines.any (fun cs => !(matcher cs).isEmpty) = !(lines.flatMap matcher).isEmpty := by
    induction lines with
    | nil => rfl
    | cons line lines ih =>
        rw [List.any_cons, ih, List.flatMap_cons]
        cases matcher line <;> rfl
  -- Every declaration starts with an opening that does not depend on the name, and those are equal by
  -- hypothesis.
  have hdeclaration : moduleDeclaration name = fun cs => (moduleOpening cs).flatMap
      (Matcher.all [.optional (.text "r#"), .text name, .blanks, .one fun c => c == ';' || c == '\x7b']) := by
    funext cs
    exact hall [.blanks, .optional moduleDeclaration.visibility, .text "mod", .gap] _ cs
  unfold anyLine
  rw [hlines, hlines, hdeclaration, ← List.flatMap_assoc, ← List.flatMap_assoc, h]

theorem FileContent.SameLines.refl (content : FileContent) : content.SameLines content := ⟨fun _ => rfl, rfl⟩

namespace Files.SameLayout

variable {files files' : Files} (hR : ∀ content content', R content content' → content.SameLines content')
  (h : SameLayout R files files')

include hR h

/-- The same files declare a module. -/
theorem declaresModule_eq : declaresModule files' = declaresModule files := by
  funext file name
  have hcontent := h.content? file
  have hdeclares (files : Files) : declaresModule files file name =
      (files.content? file).any fun content => content.text.any (anyLine (moduleDeclaration name)) := by
    unfold declaresModule Files.text?
    cases files.content? file with
    | none => rfl
    | some content =>
        rw [Option.bind_some, Option.any_some]
        cases content.text <;> rfl
  rw [hdeclares, hdeclares]
  -- From here only the two contents matter, which are missing together or alike.
  generalize files.content? file = found, files'.content? file = found' at hcontent
  cases hcontent with
  | none => rfl
  | some hcontent => exact (hR _ _ hcontent).modules name

/-- The same directories are packages. -/
theorem isPackage_eq : isPackage files' = isPackage files := by
  funext directory name
  have hcontent := h.content? (directory.below "Cargo.toml")
  -- The manifest is looked at through its first name line only.
  have hpackage (files : Files) : isPackage files directory name =
      ((files.content? (directory.below "Cargo.toml")).bind fun content =>
        content.text.bind fun text => (lineStarts text.toList).findSome? nameLine?).any
          fun found => normalized found == normalized name := by
    unfold isPackage Files.text?
    cases files.content? (directory.below "Cargo.toml") with
    | none => rfl
    | some content =>
        rw [Option.bind_some, Option.bind_some]
        cases content.text with
        | none => rfl
        | some text =>
            dsimp only [Option.bind_some]
            cases (lineStarts text.toList).findSome? nameLine? <;> rfl
  rw [hpackage, hpackage]
  generalize files.content? (directory.below "Cargo.toml") = found,
    files'.content? (directory.below "Cargo.toml") = found' at hcontent
  cases hcontent with
  | none => rfl
  | some hcontent => rw [Option.bind_some, Option.bind_some, (hR _ _ hcontent).package]

/-- **Modules.** A module has the same files in workspaces of one layout, if the same lines declare modules and
name packages. -/
theorem locate_eq (root : FilePath) : (files'.view root).locate = (files.view root).locate := by
  have hdeclares : directoryDeclares files' = directoryDeclares files := by
    funext directory name
    unfold directoryDeclares
    rw [h.declaresModule_eq hR]
  have hmodules : moduleFiles files' = moduleFiles files := by
    funext base names
    unfold moduleFiles
    rw [h.isFile_eq]
  have hdirectory : ofDirectory files' = ofDirectory files := by
    funext last directory
    unfold ofDirectory
    rw [h.isFile_eq, h.isPackage_eq hR, hdeclares]
  -- each of the three tiers asks for nothing but these
  have hlocate : Locating.locate files' = Locating.locate files := by
    funext root module
    unfold Locating.locate exact conventional searched
    rw [hmodules, hdirectory, hdeclares, h.isDirectory_eq, h.directoriesNamed_eq, h.filesNamed_eq]
  funext modulePath
  unfold Files.view Locator.locate
  dsimp only
  rw [hlocate]

end Files.SameLayout

end PayloadSchema
