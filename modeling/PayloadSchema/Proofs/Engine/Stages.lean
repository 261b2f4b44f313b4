import PayloadSchema.Proofs.Engine.Requests

/-!
# The stage that answers

Which stage gives the schema of a payload is decided by the payload's own entries, the settings, the stored
schemas and the files (`Engine.Decided`), not by what was asked for before: the cache only has to do with the
schema that is given, whether there are sources is looked for once, and what the resolver remembers is what
the files say.

The exception is the one of resolvers. A source file that is spelled as a directory is not there; but if the
file was read under another spelling, it is found in memory.

* `Engine.resolve_decided` — the stage that answers after any requests;
* `Engine.not_decided` — but not if the source file is spelled as a directory.
-/

namespace PayloadSchema

/-- A call succeeds if it succeeds for a new resolver, unless it spells the path of a remembered file as a
directory. -/
theorem Resolver.Honest.isOk_iff {files : Files} {root : FilePath} {r : Resolver}
    (h : r.Honest files root) (call : Call)
    (hplain : call.file.saysDirectory = true → r.scopes.lookup call.file.parts = none) :
    (∃ d, (Resolver.answer files call.search r).1 = .ok d) ↔
      ∃ d, (Resolver.answer files call.search (ofRoot root)).1 = .ok d := by
  have hnew := honest_ofRoot files root
  cases hdirectory : call.file.saysDirectory with
  | false =>
      have hsame := Call.search_alike hdirectory _ _ (h.answer call.search).1 (hnew.answer call.search).1
      generalize (Resolver.answer files call.search r).1 = outcome,
        (Resolver.answer files call.search (ofRoot root)).1 = outcome' at hsame
      cases hsame with
      | ok _ => exact ⟨fun _ => ⟨_, rfl⟩, fun _ => ⟨_, rfl⟩⟩
      | error _ => simp
  | true =>
      -- the file is not there, so that both fail
      obtain ⟨what, hscope, -⟩ := h.scope_of_saysDirectory hdirectory (hplain hdirectory)
      obtain ⟨what', hscope', -⟩ := hnew.scope_of_saysDirectory hdirectory rfl
      obtain ⟨g, hfails⟩ := Call.search_of_error files call (.notFound what)
      obtain ⟨g', hfails'⟩ := Call.search_of_error files call (.notFound what')
      rw [hfails r hscope, hfails' _ hscope']
      simp

/-! ## The entries of a payload -/

namespace Payload

/-- A payload has a live type with a structure. -/
def HasLive (declarations : String → LiveDeclaration) (handler : Handler) (payload : Payload) : Prop :=
  ∃ handle, payload.live? handler = some handle ∧ (handle.descriptor declarations).isResolvable = true

/-- A payload has a type expression that a new resolver finds a descriptor for, in a source file, and there
are sources that may be analysed. -/
def HasSource (settings : Settings) (files : Files) (handler : Handler) (payload : Payload) : Prop :=
  settings.analysesSources = true ∧ settings.production = false ∧ files.hasSources settings.root = true ∧
    ∃ file expression d, payload.place? handler = some (file, expression) ∧
      (Resolver.answer files (resolveExpression (settings.root.join file) expression)
        (.ofRoot settings.root)).1 = .ok d

end Payload

namespace Engine

/-- The stages in their order: each answers if it has a schema and none before it has, and if none of them
has one, a placeholder stands for it. -/
inductive Decided (settings : Settings) (store : SchemaStore) (around : Surroundings) (handler : Handler)
    (payload : Payload) : Resolution → Prop where
  | reflection (schema : Schema) (h : payload.HasLive around.declarations handler) :
      Decided settings store around handler payload ⟨schema, .reflection⟩
  | stored {schema : Schema} (hlive : ¬ payload.HasLive around.declarations handler)
      (h : payload.stored? store handler.name = some schema) :
      Decided settings store around handler payload ⟨schema, .stored⟩
  | static (schema : Schema) (hlive : ¬ payload.HasLive around.declarations handler)
      (hstored : payload.stored? store handler.name = none)
      (h : payload.HasSource settings around.files handler) :
      Decided settings store around handler payload ⟨schema, .static⟩
  | fallback (hlive : ¬ payload.HasLive around.declarations handler)
      (hstored : payload.stored? store handler.name = none)
      (hsource : ¬ payload.HasSource settings around.files handler) :
      Decided settings store around handler payload ⟨.unavailable, .fallback⟩

/-- What is decided by the sources has a source. -/
theorem Decided.hasSource {settings : Settings} {store : SchemaStore} {around : Surroundings}
    {handler : Handler} {payload : Payload} {resolution : Resolution}
    (h : Decided settings store around handler payload resolution) (hstage : resolution.stage = .static) :
    payload.HasSource settings around.files handler := by
  cases h with
  | static _ _ _ h => exact h
  | _ => cases hstage

/-! ## What each stage has -/

variable {files : Files} {e : Engine}

/-- There is a live schema if and only if the handler has a live type that is declared. -/
theorem isSome_liveSchema?_iff (e : Engine) (around : Surroundings) (handler : Handler) (payload : Payload)
    (cache : SchemaCache) :
    ((payload.live? handler).bind fun handle => e.liveSchema? around handle cache).isSome = true ↔
      payload.HasLive around.declarations handler := by
  unfold Payload.HasLive
  cases payload.live? handler with
  | none => simp
  | some handle =>
      unfold liveSchema?
      cases hresolvable : (handle.descriptor around.declarations).isResolvable <;> simp [hresolvable]

/-- Whether sources may be analysed is decided by the settings and the files. -/
theorem Honest.staticAvailable_iff (h : e.Honest files) :
    (e.staticAvailable files).1 = true ↔
      e.settings.analysesSources = true ∧ e.settings.production = false ∧
        files.hasSources e.settings.root = true := by
  have hfound : e.sourcesFound.getD (files.hasSources e.settings.root) = files.hasSources e.settings.root := by
    cases hbefore : e.sourcesFound with
    | none => rfl
    | some found => exact h.found found hbefore
  unfold staticAvailable Settings.isStaticEnabled
  cases e.settings.analysesSources <;> cases e.settings.production <;> simp [hfound]

/-- A schema is made from the sources if and only if the expression is described. -/
theorem isOk_resolveSource_iff (e : Engine) (files : Files) (file : FilePath) (expression : String)
    (cache : SchemaCache) :
    (e.resolveSource files file expression cache).1.toOption.isSome = true ↔
      ∃ d, (Resolver.answer files (resolveExpression (e.settings.root.join file) expression)
        e.resolver).1 = .ok d := by
  unfold resolveSource
  rcases Resolver.answer files (resolveExpression (e.settings.root.join file) expression) e.resolver with
    ⟨failure | descriptor, resolver⟩ <;> simp [Except.toOption]

/-- The sources have a schema if they may be analysed and a new resolver finds a descriptor. -/
theorem Honest.isSome_sourceSchema_iff (h : e.Honest files) {file : FilePath} (expression : String)
    (cache : SchemaCache)
    (hplain : (e.settings.root.join file).saysDirectory = true →
      e.resolver.scopes.lookup (e.settings.root.join file).parts = none) :
    (e.sourceSchema files file expression cache).1.isSome = true ↔
      (e.settings.analysesSources = true ∧ e.settings.production = false ∧
        files.hasSources e.settings.root = true) ∧
      ∃ d, (Resolver.answer files (resolveExpression (e.settings.root.join file) expression)
        (.ofRoot e.settings.root)).1 = .ok d := by
  have hcall := h.resolver.isOk_iff (.expression (e.settings.root.join file) expression) hplain
  have havailable := h.staticAvailable_iff
  -- Looking for sources records the answer and touches nothing else.
  have hbeside : (e.staticAvailable files).2.settings = e.settings ∧
      (e.staticAvailable files).2.resolver = e.resolver := by
    unfold staticAvailable
    split <;> exact ⟨rfl, rfl⟩
  unfold sourceSchema
  generalize e.staticAvailable files = result at havailable hbeside
  rcases result with ⟨found, e'⟩
  obtain ⟨hsettings, hresolver⟩ := hbeside
  dsimp only at havailable hsettings hresolver ⊢
  rw [← havailable]
  cases found with
  | false => simp
  | true =>
      have hschema := isOk_resolveSource_iff e' files file expression cache
      rw [hsettings, hresolver] at hschema
      simp only [true_and]
      exact hschema.trans hcall

/-- An engine that remembers what the files say answers from the stage that is decided. -/
theorem Honest.decided {around : Surroundings} (h : e.Honest around.files) (handler : Handler)
    (payload : Payload) (cache : SchemaCache)
    (hplain : ∀ file expression, payload.place? handler = some (file, expression) →
      (e.settings.root.join file).saysDirectory = true →
      e.resolver.scopes.lookup (e.settings.root.join file).parts = none) :
    Decided e.settings e.store around handler payload (e.resolve around handler payload cache).1 := by
  have hlive := isSome_liveSchema?_iff e around handler payload cache
  rw [resolve_eq]
  cases hreflected : (payload.live? handler).bind fun handle => e.liveSchema? around handle cache with
  | some found =>
      rw [hreflected] at hlive
      exact .reflection found.1 (hlive.1 rfl)
  | none =>
      rw [hreflected] at hlive
      -- A live type would have been compiled, so from here on there is none.
      have hno : ¬ payload.HasLive around.declarations handler := fun hyes => by cases hlive.2 hyes
      cases hstored : payload.stored? e.store handler.name with
      | some schema => exact .stored hno hstored
      | none =>
          cases hwritten : payload.place? handler with
          | none =>
              refine .fallback hno hstored ?_
              rintro ⟨-, -, -, file, expression, d, hsome, -⟩
              rw [hwritten] at hsome
              cases hsome
          | some place =>
              obtain ⟨file, expression⟩ := place
              have hsource := h.isSome_sourceSchema_iff expression cache (hplain file expression hwritten)
              dsimp only
              -- What is left is the written place: compiled from it, or nothing at all.
              generalize e.sourceSchema around.files file expression cache = result at hsource
              obtain ⟨schema, e', cache'⟩ := result
              cases schema with
              | some schema =>
                  obtain ⟨⟨hanalyses, hproduction, hfound⟩, d, hd⟩ := hsource.1 rfl
                  exact .static schema hno hstored
                    ⟨hanalyses, hproduction, hfound, file, expression, d, hwritten, hd⟩
              | none =>
                  refine .fallback hno hstored ?_
                  rintro ⟨hanalyses, hproduction, hfound, file', expression', d, hsome, hd⟩
                  rw [hwritten] at hsome
                  cases hsome
                  cases hsource.2 ⟨⟨hanalyses, hproduction, hfound⟩, d, hd⟩

/-- **The stage that answers.** For an engine, whatever it was asked for while the files were as they are now,
and whatever is in the cache: a payload is answered from the stage that is decided by its own entries, the
settings, the stored schemas and the files, unless it spells the path of a remembered file as a directory.
Sources that may not be analysed never answer, and nothing but the entries of the payload is looked at. -/
theorem resolve_decided {settings : Settings} {around : Surroundings} {e : Engine}
    (hstart : start settings around.files = .ok e) (past : List Call)
    (hpast : ∀ call ∈ past, call.around.files = around.files) (handler : Handler) (payload : Payload)
    (cache : SchemaCache)
    (hplain : ∀ file expression, payload.place? handler = some (file, expression) →
      (settings.root.join file).saysDirectory = true →
      (e.after past).resolver.scopes.lookup (settings.root.join file).parts = none) :
    let resolution := ((e.after past).resolve around handler payload cache).1
    Decided settings e.store around handler payload resolution ∧
      (settings.isStaticEnabled = false → resolution.stage ≠ .static) ∧
      ∀ handler' store', payload.SameEntries handler handler' e.store store' →
        (({ e.after past with store := store' } : Engine).resolve around handler' payload cache).1 =
          resolution := by
  intro resolution
  obtain ⟨hsettings, hstore, -⟩ := e.after_eq past
  have hsame : (e.after past).settings = settings := by
    rw [hsettings, (start_eq_ok_iff.1 hstart).2.2]
  -- The past was asked over the same files, so the memory is honest about them.
  have hhonest : (e.after past).Honest around.files := (honest_start hstart).after hpast
  rw [← hsame] at hplain
  have hdecided := hhonest.decided handler payload cache hplain
  rw [hsame, hstore] at hdecided
  refine ⟨hdecided, ?_, ?_⟩
  · intro hdisabled hstatic
    obtain ⟨hanalyses, hproduction, -⟩ := hdecided.hasSource hstatic
    rw [Settings.isStaticEnabled, hanalyses, hproduction] at hdisabled
    cases hdisabled
  · intro handler' store' hentries
    rw [← hstore] at hentries
    have hsources : SameSources around.files (e.after past) { e.after past with store := store' } :=
      ⟨rfl, rfl, rfl⟩
    exact (hsources.resolve hentries cache).answer.symm

end Engine

/-! ## A library that is read under two spellings -/

namespace Library

open Engine (Call)

/-- An engine for the library, which lies where paths start. -/
def engine : Engine := { settings := {}, store := {}, resolver := .ofRoot ⟨"."⟩ }

/-- A handler whose response is a list of users, with a live type that nothing is known of. -/
def listUsers : Handler where
  name := "list"
  response := some (.untyped "driver::Users")
  source := some { file := ⟨"src/./lib.rs"⟩, response := some "Vec<User>" }

/-- A handler whose request is a user, in a file of a given path. -/
def makeUser (file : String) : Handler where
  name := "make"
  source := some { file := ⟨file⟩, request := some "User" }

/-- The library is asked for a user, everything is forgotten, and the file is read under another spelling. -/
def calls : List Call :=
  [⟨{ files }, [], .resolve (makeUser "src/lib.rs") .request⟩, ⟨{ files }, [], .clear⟩,
    ⟨{ files }, [], .resolveSource ⟨"src//lib.rs"⟩ "Option<User>"⟩]

end Library

namespace Engine

open Library

/-- The response is found in the sources. -/
theorem resolve_decided_listUsers :
    start {} files = .ok engine ∧ (∀ call ∈ calls, call.around.files = files) ∧
      ((engine.after calls).resolve { files } listUsers .response []).1.stage = .static ∧
      Decided {} engine.store { files } listUsers .response
        ((engine.after calls).resolve { files } listUsers .response []).1 := by
  have hstart : start {} files = .ok engine := rfl
  have hcalls : ∀ call ∈ calls, call.around.files = files := by
    simp [calls]
  refine ⟨hstart, hcalls, by decide +kernel, ?_⟩
  refine (@resolve_decided {} { files } engine hstart calls hcalls listUsers .response [] ?_).1
  intro file expression hplace hdirectory
  -- The path is not spelled as a directory, so the side condition is met.
  have hfile : file = ⟨"src/./lib.rs"⟩ := by
    cases hplace
    rfl
  rw [hfile] at hdirectory
  exact absurd hdirectory (by decide +kernel)

/-- What was asked for before may decide: a file that is spelled as a directory is not there, but it is found
in memory if it was read before. -/
theorem not_decided :
    ¬ ∀ (settings : Settings) (around : Surroundings) (e : Engine) (past : List Call) (handler : Handler)
        (payload : Payload) (cache : SchemaCache), start settings around.files = .ok e →
      (∀ call ∈ past, call.around.files = around.files) →
      Decided settings e.store around handler payload
        ((e.after past).resolve around handler payload cache).1 := by
  intro hall
  have hdecided := hall {} { files } engine calls (makeUser "src/lib.rs/") .request [] rfl (by simp [calls])
  have hstage : ((engine.after calls).resolve { files } (makeUser "src/lib.rs/") .request []).1.stage =
      .static := by decide +kernel
  obtain ⟨-, -, -, file, expression, d, hplace, hd⟩ := hdecided.hasSource hstage
  cases hplace
  have hfails : (Resolver.answer files (resolveExpression ((FilePath.mk ".").join ⟨"src/lib.rs/"⟩) "User")
      (.ofRoot ⟨"."⟩)).1.toOption.isSome = false := by decide +kernel
  rw [hd] at hfails
  cases hfails

end Engine

end PayloadSchema
