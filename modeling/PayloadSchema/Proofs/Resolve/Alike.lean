import PayloadSchema.Proofs.Descriptor.Relation
import PayloadSchema.Proofs.Files.Spelling
import PayloadSchema.Resolve.Resolver

/-!
# What may be answered, up to spelling

Someone who remembers the scope of a file may have read it under another spelling of its path, and someone
who remembers that a file could not be read no longer knows why. Nothing else may differ in an answer. So a
search may have several outcomes (`Asking.Yields`), and all of them are alike: they differ in how the paths
of files are spelled, and in the reasons that show such a path.

* `TypeRef.Alike` — references that differ in spelling at most;
* `Asking.Alike` — two searches all of whose outcomes are related;
* `resolveDeclared_alike`, `resolveExpression_alike`, `Instantiation.load_alike` — so are the searches for
  descriptors, and for what is behind alike references.
-/

namespace PayloadSchema

variable {files : Files} {root : FilePath}

/-! ## Alike data -/

/-- Failures that differ in how the path of a file is spelled, or in why a file could not be read. -/
inductive Failure.Alike (files : Files) : Failure → Failure → Prop where
  | refl (f : Failure) : Alike files f f
  | parseFailure {p q : FilePath} (h : files.SameFile p q) (message message' : String) :
      Alike files (.parseFailure p message) (.parseFailure q message')
  | notDeclared {p q : FilePath} (h : files.SameFile p q) (name : String) :
      Alike files (.notDeclared p name) (.notDeclared q name)
  | unsupportedShape {f f' : Failure} (h : Alike files f f') :
      Alike files (.unsupportedShape f.message) (.unsupportedShape f'.message)

/-- Reasons that are the same, or the texts of failures that are alike. -/
def SameReason (files : Files) (reason reason' : String) : Prop :=
  reason = reason' ∨
    ∃ f f', Failure.Alike files f f' ∧ reason = f.message ∧ reason' = f'.message

/-- Outcomes that are both there and related, or failures that are alike. -/
inductive SameOutcome {α β : Type} (files : Files) (R : α → β → Prop) :
    Except Failure α → Except Failure β → Prop where
  | ok {a : α} {b : β} (h : R a b) : SameOutcome files R (.ok a) (.ok b)
  | error {f f' : Failure} (h : f.Alike files f') : SameOutcome files R (.error f) (.error f')

/-- Outcomes are the same in a weaker sense as well. -/
theorem SameOutcome.mono {α β : Type} {R R' : α → β → Prop} (hR : ∀ a b, R a b → R' a b)
    {x : Except Failure α} {y : Except Failure β} (h : SameOutcome files R x y) :
    SameOutcome files R' x y := by
  cases h with
  | ok h => exact .ok (hR _ _ h)
  | error h => exact .error h

/-- Outcomes that are the same are both there or both failures. -/
theorem SameOutcome.isSome_eq {α β : Type} {R : α → β → Prop} {x : Except Failure α}
    {y : Except Failure β} (h : SameOutcome files R x y) :
    x.toOption.isSome = y.toOption.isSome := by
  cases h <;> rfl

/-- The scope of the file of a declaration has it. -/
def Declaration.IsDeclared (files : Files) (root : FilePath) (d : Declaration) : Prop :=
  ∃ source, Source.ofFile files d.file = .ok source ∧
    (FileScope.ofSource root d.file source).declares d.name = true ∧
    d.modulePath = ModulePath.ofFile root d.file

/-- One declaration, in a file whose path may be spelled in two ways. -/
structure Declaration.Alike (files : Files) (root : FilePath) (d d' : Declaration) : Prop where
  file : files.SameFile d.file d'.file
  name : d.name = d'.name
  left : d.IsDeclared files root
  right : d'.IsDeclared files root

/-- References that differ in how the paths of files are spelled at most. The constructors are the ways in
which a reference comes about; `payload` is the type of a variant with named fields. -/
inductive TypeRef.Alike (files : Files) (root : FilePath) : SourceType → SourceType → Prop where
  | scalar {name : String} {s : Scalar} (h : WellKnown.scalarOf? name = some s) :
      Alike files root (scalarType name s) (scalarType name s)
  | dynamic (identity : String) :
      Alike files root (.ready (.dynamic identity)) (.ready (.dynamic identity))
  | unsupported (display reason : String) :
      Alike files root (unsupportedType display reason) (unsupportedType display reason)
  | list {t t' : SourceType} (hid : t.identity = t'.identity) (h : Alike files root t t') :
      Alike files root (.ready (.list t)) (.ready (.list t'))
  | map {key key' value value' : SourceType} (hkeyid : key.identity = key'.identity)
      (hid : value.identity = value'.identity) (hkey : Alike files root key key')
      (h : Alike files root value value') : Alike files root (.ready (.map key value)) (.ready (.map key' value'))
  | pointer {t t' : SourceType} (hid : t.identity = t'.identity) (h : Alike files root t t') :
      Alike files root (.ready (.pointer t)) (.ready (.pointer t'))
  | optional {t t' : SourceType} (hid : t.identity = t'.identity) (h : Alike files root t t') :
      Alike files root (.ready (.optional t)) (.ready (.optional t'))
  | payload (identity : String) {fields fields' : List (Field SourceType)}
      (h : List.Forall₂ (Field.Rel (Alike files root)) fields fields') :
      Alike files root (.ready (.record identity fields none)) (.ready (.record identity fields' none))
  | declared {i i' : Instantiation} (hid : i.identity = i'.identity)
      (hdeclaration : i.declaration.Alike files root i'.declaration)
      (harguments : List.Forall₂ (Alike files root) i.arguments i'.arguments) :
      Alike files root i.toType i'.toType

/-- One instantiation, whose files may be spelled in two ways. -/
structure Instantiation.Alike (files : Files) (root : FilePath) (i i' : Instantiation) : Prop where
  declaration : i.declaration.Alike files root i'.declaration
  arguments : List.Forall₂ (TypeRef.Alike files root) i.arguments i'.arguments

/-- Descriptors that differ in how the paths of files are spelled, and in reasons that show one. -/
abbrev Descriptor.Alike (files : Files) (root : FilePath) :
    Descriptor SourceType → Descriptor SourceType → Prop :=
  Descriptor.Rel (SameReason files) (TypeRef.Alike files root)

/-- The scope of one file, whose path may be spelled in two ways. -/
inductive FileScope.Alike (files : Files) (root : FilePath) : FileScope → FileScope → Prop where
  | intro {p q : FilePath} {source : Source.SourceFile} (h : files.SameFile p q)
      (hp : Source.ofFile files p = .ok source) (hq : Source.ofFile files q = .ok source) :
      Alike files root (FileScope.ofSource root p source) (FileScope.ofSource root q source)

/-! ## What may be answered -/

/-- What may be answered when the scope of a file is asked for: what the file says now, what it said under
another spelling, or that it could not be read. -/
inductive MayAnswer (files : Files) (root file : FilePath) : Except Failure FileScope → Prop where
  | fresh : MayAnswer files root file (FileScope.ofFile files root file)
  | kept {file' : FilePath} {source : Source.SourceFile} (hparts : file'.parts = file.parts)
      (h : Source.ofFile files file' = .ok source) :
      MayAnswer files root file (.ok (FileScope.ofSource root file' source))
  | failed {file' p : FilePath} {message : String} (hparts : file'.parts = file.parts)
      (h : Source.ofFile files file' = .error (.parseFailure p message)) :
      MayAnswer files root file (.error (.parseFailure file "file could not be parsed"))

/-- What a file reads as, or why it reads as nothing. -/
theorem Source.ofFile_cases (files : Files) (p : FilePath) :
    (files.isFile p = false ∧ ∃ what, Source.ofFile files p = .error (.notFound what)) ∨
    (files.isFile p = true ∧ ∃ source, Source.ofFile files p = .ok source) ∨
    (files.isFile p = true ∧ ∃ message, Source.ofFile files p = .error (.parseFailure p message)) := by
  have hfile := @Files.isFile_iff_content? files p
  unfold Source.ofFile
  -- A missing file is reported as such; one that is there can only fail to be text or to be read.
  cases hcontent : files.content? p with
  | none =>
      left
      simpa [hcontent] using hfile
  | some content =>
      right
      have htrue : files.isFile p = true := by simpa [hcontent] using hfile
      dsimp only
      split
      · exact .inr ⟨htrue, _, rfl⟩
      · exact .inr ⟨htrue, _, rfl⟩
      · exact .inl ⟨htrue, _, rfl⟩

/-- Whatever a file reads as, it is there, unless it was not found. -/
theorem Source.isFile_of_ofFile {p : FilePath} {outcome : Except Failure Source.SourceFile}
    (h : Source.ofFile files p = outcome) (hfound : ∀ what, outcome ≠ .error (.notFound what)) :
    files.isFile p = true := by
  rcases Source.ofFile_cases files p with ⟨-, what, hwhat⟩ | ⟨hfile, -⟩ | ⟨hfile, -⟩
  · exact absurd (h.symm.trans hwhat) (hfound what)
  · exact hfile
  · exact hfile

/-- What a file reads as does not depend on the spelling. -/
theorem Source.ofFile_congr {p q : FilePath} (h : files.SameFile p q) :
    (∃ source, Source.ofFile files p = .ok source ∧ Source.ofFile files q = .ok source) ∨
    (∃ message message', Source.ofFile files p = .error (.parseFailure p message) ∧
      Source.ofFile files q = .error (.parseFailure q message')) := by
  obtain ⟨content, hcontent⟩ := Option.isSome_iff_exists.1 (Files.isFile_iff_content?.1 h.left)
  have hcontent' := hcontent
  rw [h.content?_eq] at hcontent'
  unfold Source.ofFile
  rw [hcontent, hcontent']
  dsimp only
  split
  · exact .inr ⟨_, _, rfl, rfl⟩
  · exact .inr ⟨_, _, rfl, rfl⟩
  · exact .inl ⟨_, rfl, rfl⟩

/-- A file reads as the same source in another spelling of its path. -/
theorem Source.ofFile_eq_ok {p q : FilePath} (h : files.SameFile p q) {source : Source.SourceFile}
    (hp : Source.ofFile files p = .ok source) : Source.ofFile files q = .ok source := by
  rcases Source.ofFile_congr h with ⟨read, hread, hread'⟩ | ⟨_, _, hread, -⟩
  · rw [hread']
    rwa [hread] at hp
  · rw [hread] at hp
    cases hp

namespace MayAnswer

variable {file : FilePath} {answer : Except Failure FileScope}

/-- What is answered for a file that is there is what it says, under one of the spellings of its path, or
that it could not be read. -/
theorem of_isFile (h : MayAnswer files root file answer) (hfile : files.isFile file = true) :
    (∃ source file', Source.ofFile files file = .ok source ∧ files.SameFile file file' ∧
      answer = .ok (FileScope.ofSource root file' source)) ∨
    (∃ message message', Source.ofFile files file = .error (.parseFailure file message) ∧
      answer = .error (.parseFailure file message')) := by
  -- A file cannot be named by a path spelled as a directory, so a remembered answer is about this very
  -- file.
  have hplain := Files.saysDirectory_of_isFile hfile
  cases h with
  | fresh =>
      unfold FileScope.ofFile
      rcases Source.ofFile_congr (Files.SameFile.refl hfile) with
        ⟨source, hsource, -⟩ | ⟨message, _, hsource, -⟩
      · exact .inl ⟨source, file, hsource, .refl hfile, by rw [hsource]; rfl⟩
      · exact .inr ⟨message, message, hsource, by rw [hsource]; rfl⟩
  | @kept file' source hparts h =>
      have hsame := Files.SameFile.of_parts hparts (Source.isFile_of_ofFile h (by simp)) hplain
      rcases Source.ofFile_congr hsame with ⟨source', hsource', hsource⟩ | ⟨_, _, hfails, -⟩
      · rw [h] at hsource'
        cases hsource'
        exact .inl ⟨source, file', hsource, hsame.symm, rfl⟩
      · rw [h] at hfails
        cases hfails
  | @failed file' p message hparts h =>
      have hsame := Files.SameFile.of_parts hparts (Source.isFile_of_ofFile h (by simp)) hplain
      rcases Source.ofFile_congr hsame with ⟨source', hsource', -⟩ | ⟨_, message', -, hfails⟩
      · rw [h] at hsource'
        cases hsource'
      · exact .inr ⟨message', _, hfails, rfl⟩

/-- For a file that is not there only that is answered, unless the text says directory. -/
theorem of_not_isFile (h : MayAnswer files root file answer) (hfile : files.isFile file = false)
    (hplain : file.saysDirectory = false) : answer = FileScope.ofFile files root file := by
  -- What was remembered for these parts was a file once it was read, and this path names none.
  have hnot {file' : FilePath} {outcome : Except Failure Source.SourceFile}
      (hparts : file'.parts = file.parts) (h : Source.ofFile files file' = outcome) :
      ∃ what, outcome = .error (.notFound what) := by
    by_contra hfound
    have hfile' := Source.isFile_of_ofFile h fun what hwhat => hfound ⟨what, hwhat⟩
    rw [(Files.SameFile.of_parts hparts hfile' hplain).right] at hfile
    cases hfile
  cases h with
  | fresh => rfl
  | kept hparts h =>
      obtain ⟨what, hwhat⟩ := hnot hparts h
      cases hwhat
  | failed hparts h =>
      obtain ⟨what, hwhat⟩ := hnot hparts h
      cases hwhat

end MayAnswer

/-! ## What a search may yield -/

namespace Asking

variable {α β γ δ : Type}

/-- What a search may have as its outcome, if each question gets an answer that may be given. -/
inductive Yields (files : Files) (root : FilePath) : Asking α → α → Prop where
  | done (a : α) : Yields files root (.done a) a
  | locate {modulePath : String} {next : List FilePath → Asking α} {a : α}
      (h : Yields files root (next ((files.view root).locate modulePath)) a) :
      Yields files root (.locate modulePath next) a
  | scope {file : FilePath} {next : Except Failure FileScope → Asking α} {a : α}
      {answer : Except Failure FileScope} (hanswer : MayAnswer files root file answer)
      (h : Yields files root (next answer) a) : Yields files root (.scope file next) a
  | read {file : FilePath} {next : Except Failure Source.SourceFile → Asking α} {a : α}
      (h : Yields files root (next (Source.ofFile files file)) a) : Yields files root (.read file next) a

theorem yields_pure {a b : α} : Yields files root (pure a) b ↔ b = a := by
  constructor
  · intro h
    cases h
    rfl
  · rintro rfl
    exact .done b

/-- One search after another yields what the second yields after the first. -/
theorem yields_bind {x : Asking α} {f : α → Asking β} {b : β} :
    Yields files root (x >>= f) b ↔ ∃ a, Yields files root x a ∧ Yields files root (f a) b := by
  constructor
  · intro h
    -- Cut the asking where the first half is done: induction on what is still to be asked.
    induction x with
    | done a => exact ⟨a, .done a, h⟩
    | locate modulePath next ih =>
        cases h with
        | locate h =>
          obtain ⟨a, ha, hb⟩ := ih _ h
          exact ⟨a, .locate ha, hb⟩
    | scope file next ih =>
        cases h with
        | scope hanswer h =>
          obtain ⟨a, ha, hb⟩ := ih _ h
          exact ⟨a, .scope hanswer ha, hb⟩
    | read file next ih =>
        cases h with
        | read h =>
          obtain ⟨a, ha, hb⟩ := ih _ h
          exact ⟨a, .read ha, hb⟩
  · rintro ⟨a, ha, hb⟩
    induction ha with
    | done a => exact hb
    | locate _ ih => exact .locate (ih hb)
    | scope hanswer _ ih => exact .scope hanswer (ih hb)
    | read _ ih => exact .read (ih hb)

/-- A search whose outcome is changed yields the changed outcomes. -/
theorem yields_map {f : α → β} {x : Asking α} {b : β} :
    Yields files root (f <$> x) b ↔ ∃ a, Yields files root x a ∧ b = f a := by
  refine yields_bind.trans ?_
  constructor
  · rintro ⟨a, ha, hb⟩
    exact ⟨a, ha, yields_pure.1 hb⟩
  · rintro ⟨a, ha, hb⟩
    exact ⟨a, ha, yields_pure.2 hb⟩

/-- Searches one after the other yield an outcome of each. -/
theorem yields_all {xs : List (Asking α)} {as : List α} (h : Yields files root (all xs) as) :
    List.Forall₂ (Yields files root) xs as := by
  induction xs generalizing as with
  | nil =>
      rw [yields_pure.1 h]
      exact .nil
  | cons x xs ih =>
      obtain ⟨a, ha, h⟩ := yields_bind.1 h
      obtain ⟨rest, hrest, h⟩ := yields_bind.1 h
      rw [yields_pure.1 h]
      exact .cons ha (ih hrest)

/-- What the files say is among the outcomes. -/
theorem yields_under (files : Files) (root : FilePath) (x : Asking α) :
    Yields files root x (x.under (files.view root)) := by
  induction x with
  | done a => exact .done a
  | locate modulePath next ih => exact .locate (ih _)
  | scope file next ih => exact .scope .fresh (ih _)
  | read file next ih => exact .read (ih _)

/-- Two searches any two outcomes of which are related. -/
def Alike (files : Files) (root : FilePath) (R : α → β → Prop) (x : Asking α) (y : Asking β) : Prop :=
  ∀ a b, Yields files root x a → Yields files root y b → R a b

namespace Alike

variable {R : α → β → Prop} {S : γ → δ → Prop} {x : Asking α} {y : Asking β}

protected theorem pure {a : α} {b : β} (h : R a b) : Alike files root R (pure a) (pure b) := by
  intro a' b' ha hb
  rw [yields_pure.1 ha, yields_pure.1 hb]
  exact h

protected theorem bind {f : α → Asking γ} {g : β → Asking δ} (h : Alike files root R x y)
    (hnext : ∀ a b, R a b → Alike files root S (f a) (g b)) : Alike files root S (x >>= f) (y >>= g) := by
  intro c d hc hd
  obtain ⟨a, ha, hc⟩ := yields_bind.1 hc
  obtain ⟨b, hb, hd⟩ := yields_bind.1 hd
  exact hnext a b (h a b ha hb) c d hc hd

protected theorem map {f : α → γ} {g : β → δ} (h : Alike files root R x y)
    (hfg : ∀ a b, R a b → S (f a) (g b)) : Alike files root S (f <$> x) (g <$> y) :=
  h.bind fun a b hab => .pure (hfg a b hab)

/-- Searches that are alike one by one have outcomes that are. -/
theorem all {xs : List (Asking α)} {ys : List (Asking β)}
    (h : List.Forall₂ (Alike files root R) xs ys) :
    Alike files root (List.Forall₂ R) (all xs) (all ys) := by
  induction h with
  | nil => exact .pure .nil
  | cons hxy _ ih =>
      refine hxy.bind ?_
      intro a b hab
      refine ih.bind ?_
      intro as bs hall
      exact .pure (.cons hab hall)

/-- The first value that there is, of searches that are alike, is alike. -/
theorem first {f : γ → Asking (Option α)} {g : δ → Asking (Option β)} {cs : List γ} {ds : List δ}
    (h : List.Forall₂ S cs ds) (hfg : ∀ c d, S c d → Alike files root (SameOption R) (f c) (g d)) :
    Alike files root (SameOption R) (first f cs) (first g ds) := by
  induction h with
  | nil => exact .pure .none
  | cons hcd _ ih =>
      refine (hfg _ _ hcd).bind ?_
      intro o o' ho
      cases ho with
      | none => exact ih
      | some hab => exact .pure (.some hab)

end Alike

end Asking

/-! ## Questions -/

namespace Asking

/-- Two spellings of a file read as the same. -/
theorem sourceOf_alike {p q : FilePath} (h : files.SameFile p q) :
    Alike files root (SameOutcome files Eq) (sourceOf p) (sourceOf q) := by
  intro a b ha hb
  cases ha with
  | read ha =>
  cases hb with
  | read hb =>
  rw [yields_pure.1 ha, yields_pure.1 hb]
  rcases Source.ofFile_congr h with ⟨source, hp, hq⟩ | ⟨message, message', hp, hq⟩
  · rw [hp, hq]
    exact .ok rfl
  · rw [hp, hq]
    exact .error (.parseFailure h message message')

/-- Two spellings of a file have scopes that are alike. -/
theorem scopeOf_alike_of_isFile {p q : FilePath} (h : files.SameFile p q) :
    Alike files root (SameOutcome files (FileScope.Alike files root)) (scopeOf p) (scopeOf q) := by
  intro a b ha hb
  cases ha with
  | scope hanswer ha =>
  cases hb with
  | scope hanswer' hb =>
  -- Both answers read the same file, so either both have a source or both fail to parse.
  rw [yields_pure.1 ha, yields_pure.1 hb]
  rcases hanswer.of_isFile h.left with ⟨source, p', hp, hpp', rfl⟩ | ⟨_, _, hp, rfl⟩ <;>
    rcases hanswer'.of_isFile h.right with ⟨source', q', hq, hqq', rfl⟩ | ⟨_, _, hq, rfl⟩ <;>
    rcases Source.ofFile_congr h with ⟨read, hread, hread'⟩ | ⟨_, _, hread, hread'⟩ <;>
    simp only [hp, hq, Except.ok.injEq, reduceCtorEq] at hread hread'
  · rw [hread, hread']
    rw [hread] at hp
    rw [hread'] at hq
    have hsame := (hpp'.symm.trans h).trans hqq'
    exact .ok (.intro hsame (Source.ofFile_eq_ok hpp' hp) (Source.ofFile_eq_ok hqq' hq))
  · exact .error (.parseFailure h _ _)

/-- For a file that is not there the same is answered each time. -/
theorem scopeOf_alike {p : FilePath} (h : p.saysDirectory = false) :
    Alike files root (SameOutcome files (FileScope.Alike files root)) (scopeOf p) (scopeOf p) := by
  cases hfile : files.isFile p with
  | true => exact scopeOf_alike_of_isFile (.refl hfile)
  | false =>
      intro a b ha hb
      cases ha with
      | scope hanswer ha =>
      cases hb with
      | scope hanswer' hb =>
      rw [yields_pure.1 ha, yields_pure.1 hb, hanswer.of_not_isFile hfile h,
        hanswer'.of_not_isFile hfile h]
      -- Nothing is remembered about a path that names no file, so both answers are the fresh one.
      rcases Source.ofFile_cases files p with ⟨-, what, hread⟩ | ⟨htrue, -⟩ | ⟨htrue, -⟩
      · rw [FileScope.ofFile, hread]
        exact .error (.refl _)
      · rw [hfile] at htrue
        cases htrue
      · rw [hfile] at htrue
        cases htrue

/-- The files of a module are the same whenever they are asked for, and none is spelled as a directory. -/
theorem filesOf_alike (modulePath : String) :
    Alike files root (fun found found' => found' = found ∧ ∀ p ∈ found, p.saysDirectory = false)
      (filesOf modulePath) (filesOf modulePath) := by
  intro a b ha hb
  cases ha with
  | locate ha =>
  cases hb with
  | locate hb =>
  rw [yields_pure.1 ha, yields_pure.1 hb]
  refine ⟨rfl, ?_⟩
  intro p hp
  unfold Files.view Locator.locate at hp
  dsimp only at hp
  -- A located file is a path the search built or listed, none of which ends in a slash.
  split at hp
  · cases hp
  · exact Locating.saysDirectory_of_mem_locate hp

/-- The scopes of the files of a module are alike whenever they are asked for. -/
theorem scopesOf_alike (modulePath : String) :
    Alike files root (List.Forall₂ (FileScope.Alike files root)) (scopesOf modulePath) (scopesOf modulePath) := by
  refine (filesOf_alike modulePath).bind ?_
  rintro found _ ⟨rfl, hfound⟩
  refine (Alike.all (R := SameOutcome files (FileScope.Alike files root)) ?_).map ?_
  · rw [List.forall₂_map_left_iff, List.forall₂_map_right_iff, List.forall₂_same]
    intro p hp
    exact scopeOf_alike (hfound p hp)
  · intro answers answers' h
    induction h with
    | nil => exact .nil
    | cons hanswer _ ih =>
        cases hanswer with
        | ok h => exact .cons h ih
        | error h => exact ih

end Asking

end PayloadSchema
