import PayloadSchema.Proofs.Resolve.Searches

/-!
# What a resolver remembers changes nothing

What a resolver remembers is what the files say (`Resolver.Honest`): a new one remembers nothing, and every
question keeps it so. Its answers are therefore such as may be given, and any search has alike outcomes
whatever was asked before. The types behind references are loaded later, perhaps after more was asked, and
are the same all the way down.

One thing is kept by the parts of a path but depends on its text: a path that says directory leads to no
file. If the file was read under another spelling, its scope is remembered and found for such a path too, so
that a type is described for which a new resolver fails.

* `Resolver.Honest.answer` — what one search preserves, and what it yields;
* `Resolver.transparent` — a call has the outcome that it has for a new resolver;
* `Resolver.not_transparent` — but not if the path of a remembered file is spelled as a directory.
-/

namespace PayloadSchema

namespace Resolver

/-- What is remembered is what the files say, under some spelling of their paths. -/
structure Honest (files : Files) (root : FilePath) (r : Resolver) : Prop where
  root_eq : r.root = root
  located : ∀ modulePath found, r.locator.located.find? modulePath = some found →
    found = Locating.locate files root modulePath
  kept : ∀ parts scope, r.scopes.lookup parts = some (some scope) →
    ∃ (file : FilePath) (source : Source.SourceFile), file.parts = parts ∧
      Source.ofFile files file = .ok source ∧ scope = FileScope.ofSource root file source
  failed : ∀ parts, r.scopes.lookup parts = some none →
    ∃ (file p : FilePath) (message : String), file.parts = parts ∧
      Source.ofFile files file = .error (.parseFailure p message)

variable {files : Files} {root : FilePath} {r : Resolver}

/-- A new resolver remembers nothing, so it is honest. -/
theorem honest_ofRoot (files : Files) (root : FilePath) : Honest files root (ofRoot root) where
  root_eq := rfl
  located _ _ h := by cases h
  kept _ _ h := by cases h
  failed _ h := by cases h

namespace Honest

/-- A cleared resolver is honest. -/
theorem clear (h : Honest files root r) : Honest files root r.clear where
  root_eq := h.root_eq
  located _ _ h := by cases h
  kept _ _ h := by cases h
  failed _ h := by cases h

/-- An honest resolver finds the files of a module as the view has them. -/
theorem locate (h : Honest files root r) (modulePath : String) :
    (r.locate files modulePath).1 = (files.view root).locate modulePath ∧
      Honest files root (r.locate files modulePath).2 := by
  have hroot : r.locator.root = root := h.root_eq
  unfold Resolver.locate Files.view Locator.locate
  dsimp only
  by_cases hexternal : ModulePath.isExternal modulePath = true
  · rw [if_pos hexternal, if_pos hexternal]
    exact ⟨rfl, h⟩
  · rw [if_neg hexternal, if_neg hexternal]
    cases hfound : r.locator.located.find? modulePath with
    | some found => exact ⟨h.located modulePath found hfound, h⟩
    | none =>
        rw [hroot]
        refine ⟨rfl, rfl, ?_, h.kept, h.failed⟩
        intro modulePath' found hfound'
        dsimp only at hfound'
        -- The new entry holds what was just found, and every older one is as honest as before.
        by_cases hsame : modulePath' = modulePath
        · rw [hsame, Dictionary.find?_insert_self] at hfound'
          rw [hsame, Option.some.inj hfound']
        · rw [Dictionary.find?_insert_of_ne _ _ hsame] at hfound'
          exact h.located modulePath' found hfound'

/-- A new entry for a file is what the file says. -/
theorem remember (h : Honest files root r) {file : FilePath} {memory : Option FileScope}
    (hmemory : memory? (FileScope.ofFile files root file) = some memory) :
    Honest files root { r with scopes := (file.parts, memory) :: r.scopes } := by
  -- Only a source that was read, or a failure to parse it, is ever remembered.
  have hentry : (∃ source, Source.ofFile files file = .ok source ∧
        memory = some (FileScope.ofSource root file source)) ∨
      (∃ message, Source.ofFile files file = .error (.parseFailure file message) ∧ memory = none) := by
    unfold FileScope.ofFile at hmemory
    rcases Source.ofFile_cases files file with ⟨-, what, hread⟩ | ⟨-, source, hread⟩ | ⟨-, message, hread⟩
    · rw [hread] at hmemory
      cases hmemory
    · rw [hread] at hmemory
      cases hmemory
      exact .inl ⟨source, hread, rfl⟩
    · rw [hread] at hmemory
      cases hmemory
      exact .inr ⟨message, hread, rfl⟩
  refine ⟨h.root_eq, h.located, ?_, ?_⟩
  · intro parts scope hlookup
    rw [List.lookup_cons] at hlookup
    split at hlookup
    next hparts =>
      rcases hentry with ⟨source, hread, rfl⟩ | ⟨message, hread, rfl⟩
      · cases hlookup
        exact ⟨file, source, (beq_iff_eq.1 hparts).symm, hread, rfl⟩
      · cases hlookup
    next => exact h.kept parts scope hlookup
  · intro parts hlookup
    rw [List.lookup_cons] at hlookup
    split at hlookup
    next hparts =>
      rcases hentry with ⟨source, hread, rfl⟩ | ⟨message, hread, rfl⟩
      · cases hlookup
      · exact ⟨file, file, message, (beq_iff_eq.1 hparts).symm, hread⟩
    next => exact h.failed parts hlookup

/-- An honest resolver answers for a scope with what may be answered. -/
theorem scope (h : Honest files root r) (file : FilePath) :
    MayAnswer files root file (r.scope files file).1 ∧ Honest files root (r.scope files file).2 := by
  have hroot := h.root_eq
  unfold Resolver.scope
  -- Answered from a scope kept, from a failure kept, or from the files.
  split
  next scope hlookup =>
    obtain ⟨file', source, hparts, hsource, rfl⟩ := h.kept _ _ hlookup
    exact ⟨.kept hparts hsource, h⟩
  next hlookup =>
    obtain ⟨file', p, message, hparts, hfails⟩ := h.failed _ hlookup
    exact ⟨.failed hparts hfails, h⟩
  next hlookup =>
    rw [hroot]
    dsimp only
    split
    next memory hmemory => exact ⟨.fresh, h.remember hmemory⟩
    next => exact ⟨.fresh, h⟩

/-- An outcome that a search has is one that it may have, and what is remembered afterwards is still what
the files say. -/
theorem answer {α : Type} (h : Honest files root r) (x : Asking α) :
    Asking.Yields files root x (Resolver.answer files x r).1 ∧
      Honest files root (Resolver.answer files x r).2 := by
  -- Each question leaves an honest resolver to the next.
  induction x generalizing r with
  | done a => exact ⟨.done a, h⟩
  | locate modulePath next ih =>
      obtain ⟨hfound, hlocated⟩ := h.locate modulePath
      obtain ⟨hyields, hhonest⟩ := ih _ hlocated
      refine ⟨.locate ?_, hhonest⟩
      rw [← hfound]
      exact hyields
  | scope file next ih =>
      obtain ⟨hanswer, hscope⟩ := h.scope file
      obtain ⟨hyields, hhonest⟩ := ih _ hscope
      exact ⟨.scope hanswer hyields, hhonest⟩
  | read file next ih =>
      obtain ⟨hyields, hhonest⟩ := ih _ h
      exact ⟨.read hyields, hhonest⟩

end Honest

/-! ## Calls, in any order -/

/-- What a resolver is asked to describe. -/
inductive Call where
  /-- A type declared in a file. -/
  | declared (file : FilePath) (name : String)
  /-- A type expression as it would be understood in a file. -/
  | expression (file : FilePath) (text : String)

/-- The file that a call is about. -/
def Call.file : Call → FilePath
  | declared file _ => file
  | expression file _ => file

/-- The search that a call makes. -/
def Call.search : Call → Asking (Except Failure (Descriptor SourceType))
  | declared file name => resolveDeclared file name
  | expression file text => resolveExpression file text

/-- What a resolver may be asked for, or told to do. -/
inductive Request where
  | resolve (call : Call)
  | scope (file : FilePath)
  | locate (modulePath : String)
  /-- Loads a reference. -/
  | load (i : Instantiation)
  | clear

/-- The resolver after a request. -/
def handle (files : Files) (r : Resolver) : Request → Resolver
  | .resolve call => (Resolver.answer files call.search r).2
  | .scope file => (r.scope files file).2
  | .locate modulePath => (r.locate files modulePath).2
  | .load i => (Resolver.answer files i.load r).2
  | .clear => r.clear

/-- The resolver after several requests. -/
def after (files : Files) (r : Resolver) (requests : List Request) : Resolver :=
  requests.foldl (handle files) r

/-- A resolver stays honest over a request. -/
theorem Honest.handle (h : Honest files root r) (request : Request) :
    Honest files root (r.handle files request) := by
  cases request with
  | resolve call => exact (h.answer call.search).2
  | scope file => exact (h.scope file).2
  | locate modulePath => exact (h.locate modulePath).2
  | load i => exact (h.answer i.load).2
  | clear => exact h.clear

/-- A resolver stays honest over all requests. -/
theorem Honest.after (h : Honest files root r) (requests : List Request) :
    Honest files root (r.after files requests) := by
  induction requests generalizing r with
  | nil => exact h
  | cons request requests ih => exact ih (h.handle request)

/-! ## The same all the way down -/

/-- References of one identity behind which the same types are found, so many levels deep, whatever the
two resolvers are asked for before each is loaded. -/
def SameWithin (files : Files) (r r' : Resolver) : Nat → SourceType → SourceType → Prop
  | 0, t, t' => t.identity = t'.identity
  | levels + 1, t, t' => t.identity = t'.identity ∧ ∀ later later' : List Request,
      (t.load ((r.after files later).environment files)).Rel (SameReason files)
        (SameWithin files r r' levels) (t'.load ((r'.after files later').environment files))

/-- What is loaded in the environment of a resolver is what it answers. -/
theorem load_environment (files : Files) (r : Resolver) (t : SourceType) :
    t.load (r.environment files) = (Resolver.answer files t.fetch r).1 := by
  cases t <;> rfl

/-- Honest resolvers load the same over so many levels, up to spelling. -/
theorem Honest.sameWithin {r' : Resolver} (h : Honest files root r) (h' : Honest files root r')
    (levels : Nat) {t t' : SourceType} (ht : t.Alike files root t') : SameWithin files r r' levels t t' := by
  induction levels generalizing t t' with
  | zero => exact ht.identity_eq
  | succ levels ih =>
      refine ⟨ht.identity_eq, ?_⟩
      intro later later'
      rw [load_environment, load_environment]
      -- requests keep both resolvers honest, so that what they fetch is alike
      have hyields := ((h.after later).answer t.fetch).1
      have hyields' := ((h'.after later').answer t'.fetch).1
      have hfetched := TypeRef.fetch_alike ht _ _ hyields hyields'
      exact hfetched.mono fun _ _ => ih

/-- A call has the outcome that it has for a new resolver: both describe the type, and the descriptors are
the same all the way down, or both fail alike. -/
def Transparent (files : Files) (root : FilePath) (past : List Request) (call : Call) : Prop :=
  let asked := Resolver.answer files call.search ((ofRoot root).after files past)
  let fresh := Resolver.answer files call.search (ofRoot root)
  SameOutcome files
    (fun d d' => ∀ levels, d.Rel (SameReason files) (SameWithin files asked.2 fresh.2 levels) d')
    asked.1 fresh.1

/-- The search of a call for a file that is not spelled as a directory is alike to itself. -/
theorem Call.search_alike {call : Call} (hplain : call.file.saysDirectory = false) :
    Asking.Alike files root (SameOutcome files (Descriptor.Alike files root)) call.search call.search := by
  cases call with
  | declared file name => exact resolveDeclared_alike hplain name
  | expression file text => exact resolveExpression_alike hplain text

/-- A search that begins with a scope is answered by way of the scope. -/
theorem answer_scopeOf_bind {α : Type} (file : FilePath) (next : Except Failure FileScope → Asking α)
    (r : Resolver) :
    Resolver.answer files (Asking.scopeOf file >>= next) r =
      Resolver.answer files (next (r.scope files file).1) (r.scope files file).2 :=
  rfl

/-- If a file has no scope, a call about it fails with no further question. -/
theorem Call.search_of_error (files : Files) (call : Call) (f : Failure) : ∃ g, ∀ r : Resolver,
    (r.scope files call.file).1 = .error f → (Resolver.answer files call.search r).1 = .error g := by
  cases call with
  | declared file name =>
      refine ⟨f, ?_⟩
      intro r hr
      dsimp only [Call.search, Call.file] at hr ⊢
      rw [resolveDeclared, answer_scopeOf_bind, hr]
      rfl
  -- An expression that does not parse fails before any scope is asked for.
  | expression file text =>
      dsimp only [Call.search, Call.file]
      unfold resolveExpression
      cases Source.TypeExpr.ofText? text with
      | none => exact ⟨_, fun _ _ => rfl⟩
      | some type =>
          refine ⟨f, ?_⟩
          intro r hr
          dsimp only
          rw [answer_scopeOf_bind, hr]
          rfl

/-- A path that says directory and is not remembered has no scope. -/
theorem Honest.scope_of_saysDirectory (h : Honest files root r) {file : FilePath}
    (hdirectory : file.saysDirectory = true) (hlookup : r.scopes.lookup file.parts = none) :
    ∃ what, (r.scope files file).1 = .error (.notFound what) ∧
      FileScope.ofFile files root file = .error (.notFound what) := by
  -- A path spelled as a directory names no file, so it is not found.
  rcases Source.ofFile_cases files file with ⟨-, what, hread⟩ | ⟨hfile, -⟩ | ⟨hfile, -⟩
  · have hscope : FileScope.ofFile files root file = .error (.notFound what) := by
      rw [FileScope.ofFile, hread]
      rfl
    refine ⟨what, ?_, hscope⟩
    unfold Resolver.scope
    rw [hlookup]
    dsimp only
    rw [h.root_eq, hscope]
    rfl
  · rw [Files.saysDirectory_of_isFile hfile] at hdirectory
    cases hdirectory
  · rw [Files.saysDirectory_of_isFile hfile] at hdirectory
    cases hdirectory

/-- **What is remembered changes nothing.** Whatever a resolver was asked for before, a call has the outcome
that it has for a new one, unless it spells the path of a remembered file as a directory. -/
theorem transparent (files : Files) (root : FilePath) (past : List Request) (call : Call)
    (h : call.file.saysDirectory = true →
      ((ofRoot root).after files past).scopes.lookup call.file.parts = none) :
    Transparent files root past call := by
  have hnew := honest_ofRoot files root
  have hpast := hnew.after past
  cases hdirectory : call.file.saysDirectory with
  | false =>
      obtain ⟨hyields, hasked⟩ := hpast.answer call.search
      obtain ⟨hyields', hfresh⟩ := hnew.answer call.search
      have houtcome := Call.search_alike hdirectory _ _ hyields hyields'
      refine houtcome.mono ?_
      -- Alike descriptors refer to alike types, behind which the same is found at all levels.
      intro d d' hd levels
      exact hd.mono fun _ _ => hasked.sameWithin hfresh levels
  | true =>
      -- neither the one nor the other resolver finds a scope
      obtain ⟨what, hscope, hnot⟩ := hpast.scope_of_saysDirectory hdirectory (h hdirectory)
      obtain ⟨what', hscope', hnot'⟩ := hnew.scope_of_saysDirectory hdirectory rfl
      rw [hnot] at hnot'
      cases hnot'
      obtain ⟨g, hfails⟩ := Call.search_of_error files call (.notFound what)
      unfold Transparent
      dsimp only
      rw [hfails _ hscope, hfails _ hscope']
      exact .error (.refl g)

end Resolver

/-! ## A library with one type -/

namespace Library

open Resolver (Request)

/-- A library that declares a user. -/
def files : Files := .ofSources [("lib.rs", "struct User { id: u64 }")]

/-- The library lies where paths start. -/
def home : FilePath := ⟨""⟩

/-- The user is described, everything is forgotten, and the file is read under another spelling. -/
def past : List Request :=
  [.resolve (.declared ⟨"src/lib.rs"⟩ "User"), .clear, .locate "crate", .scope ⟨"src/./lib.rs"⟩]

end Library

namespace Resolver

open Library

/-- After the file was read under one spelling, a list of users is described under another as by a new
resolver; and once everything is forgotten, a path that says directory leads nowhere. -/
theorem transparent_user :
    (Resolver.answer files (Call.expression ⟨"src//lib.rs"⟩ "Vec<User>").search
      ((ofRoot home).after files past)).1.toOption.isSome = true ∧
    Transparent files home past (.expression ⟨"src//lib.rs"⟩ "Vec<User>") ∧
    (FilePath.mk "src/lib.rs/").saysDirectory = true ∧
    ((ofRoot home).after files (past ++ [.clear])).scopes.lookup (FilePath.mk "src/lib.rs/").parts = none ∧
    Transparent files home (past ++ [.clear]) (.declared ⟨"src/lib.rs/"⟩ "User") := by
  have hplain : (FilePath.mk "src//lib.rs").saysDirectory = false := by decide +kernel
  -- Clearing forgets the scope kept under these parts, which is what the second conjunct needs.
  have hforgotten : ((ofRoot home).after files (past ++ [.clear])).scopes.lookup
      (FilePath.mk "src/lib.rs/").parts = none := by
    decide +kernel
  refine ⟨by decide +kernel, ?_, by decide +kernel, hforgotten, ?_⟩
  · apply transparent files home past
    intro hdirectory
    rw [Call.file, hplain] at hdirectory
    cases hdirectory
  · apply transparent files home
    intro _
    exact hforgotten

/-- What is remembered may change an outcome: a new resolver finds no file at a path with a slash at its
end, but one that has read the file describes the user. -/
theorem not_transparent :
    ¬ ∀ (files : Files) (root : FilePath) (past : List Request) (call : Call),
      Transparent files root past call := by
  intro hall
  have hsame := (hall files home [.resolve (.declared ⟨"src/lib.rs"⟩ "User")]
    (.declared ⟨"src/lib.rs/"⟩ "User")).isSome_eq
  revert hsame
  decide +kernel

end Resolver

end PayloadSchema
