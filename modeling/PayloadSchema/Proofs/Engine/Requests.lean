import PayloadSchema.Engine.Basic
import PayloadSchema.Proofs.Resolve.Memory

/-!
# Requests to an engine

An engine answers requests one after another. Each finds the files and the live types of the moment, and
the cache of compiled schemas, which other engines may share. What a request may change is said once
(`Engine.Step`): what the resolver remembers, and whether sources were found, if nobody had looked before.

* `Engine.handle` — the answer to a request, and the engine and the cache afterwards;
* `Engine.step_handle`, `Engine.after_eq` — what one request changes, and what any number of them leaves;
* `Engine.Honest.after` — while the files stay as they are, what an engine remembers is what they say.
-/

namespace PayloadSchema

/-! ## Resolvers that load references -/

namespace Resolver

variable {files : Files} {root : FilePath} {r : Resolver}

/-- A resolver keeps its root whatever it is asked. -/
theorem root_answer {α : Type} (files : Files) (x : Asking α) (r : Resolver) :
    (answer files x r).2.root = r.root := by
  induction x generalizing r with
  | done a => rfl
  | locate modulePath next ih =>
      -- A resolver records what it finds and never moves its root.
      have hlocate : (r.locate files modulePath).2.root = r.root := by
        unfold Resolver.locate Locator.locate Resolver.root
        split_ifs
        · rfl
        · cases r.locator.located.find? modulePath <;> rfl
      exact (ih _ _).trans hlocate
  | scope file next ih =>
      have hscope : (r.scope files file).2.root = r.root := by
        unfold Resolver.scope
        split
        · rfl
        · rfl
        · dsimp only
          split <;> rfl
      exact (ih _ _).trans hscope
  | read file next ih => exact ih _ _

/-- A resolver keeps its root whatever it follows. -/
theorem root_follow (files : Files) (r : Resolver) (loads : List Instantiation) :
    (r.follow files loads).root = r.root := by
  induction loads with
  | nil => rfl
  | cons i loads ih => exact (root_answer files i.load _).trans ih

/-- An honest resolver stays honest when it follows loads. -/
theorem Honest.follow (h : Honest files root r) (loads : List Instantiation) :
    Honest files root (r.follow files loads) := by
  induction loads with
  | nil => exact h
  | cons i loads ih => exact (ih.answer i.load).2

/-- A resolver that remembers nothing knows no more than its root. -/
theorem clear_eq_ofRoot (r : Resolver) : r.clear = ofRoot r.root := rfl

end Resolver

/-! ## Requests -/

/-- The source file and the type expression of a payload. -/
def Payload.place? (handler : Handler) (payload : Payload) : Option (FilePath × String) := do
  let place ← handler.source
  return (place.file, ← payload.expression? place)

/-- The entries of a payload are the same in two handlers with their stored schemas. -/
structure Payload.SameEntries (payload : Payload) (handler handler' : Handler) (store store' : SchemaStore) :
    Prop where
  live : payload.live? handler = payload.live? handler'
  stored : payload.stored? store handler.name = payload.stored? store' handler'.name
  place : payload.place? handler = payload.place? handler'

namespace Engine

/-- What an engine may be asked for, or told to do. -/
inductive Request where
  /-- The schema of a payload of a handler. -/
  | resolve (handler : Handler) (payload : Payload)
  /-- The schema of a type expression in a source file. -/
  | resolveSource (file : FilePath) (expression : String)
  /-- Whether sources may be analysed. -/
  | available
  | clear

/-- What an engine answers. -/
inductive Answer where
  | resolution (r : Resolution)
  | schema (outcome : Except Failure Schema)
  | available (found : Bool)
  | cleared

/-- The answer to a request, and the engine and the cache afterwards. -/
def handle (e : Engine) (around : Surroundings) (cache : SchemaCache) :
    Request → Answer × Engine × SchemaCache
  | .resolve handler payload =>
    let (resolution, e, cache) := e.resolve around handler payload cache
    (.resolution resolution, e, cache)
  | .resolveSource file expression =>
    let (outcome, e, cache) := e.resolveSource around.files file expression cache
    (.schema outcome, e, cache)
  | .available =>
    let (found, e) := e.staticAvailable around.files
    (.available found, e, cache)
  | .clear => (.cleared, e.clear, [])

/-- A request with what it finds. -/
structure Call where
  around : Surroundings
  cache : SchemaCache
  request : Request

/-- The engine after several calls. -/
def after (e : Engine) (calls : List Call) : Engine :=
  calls.foldl (fun e call => (e.handle call.around call.cache call.request).2.1) e

/-! ## What a request changes -/

/-- What a request may change if it finds these files. -/
structure Step (files : Files) (e e' : Engine) : Prop where
  settings : e'.settings = e.settings
  store : e'.store = e.store
  root : e'.resolver.root = e.resolver.root
  honest : ∀ root, e.resolver.Honest files root → e'.resolver.Honest files root
  found : ∀ found, e'.sourcesFound = some found →
    e.sourcesFound = some found ∨ found = files.hasSources e.settings.root

variable {files : Files} {e e' e'' : Engine}

namespace Step

protected theorem refl (files : Files) (e : Engine) : Step files e e :=
  ⟨rfl, rfl, rfl, fun _ h => h, fun _ h => .inl h⟩

protected theorem trans (h : Step files e e') (h' : Step files e' e'') : Step files e e'' where
  settings := h'.settings.trans h.settings
  store := h'.store.trans h.store
  root := h'.root.trans h.root
  honest root hhonest := h'.honest root (h.honest root hhonest)
  found found hfound := by
    rcases h'.found found hfound with hbefore | hnow
    · exact h.found found hbefore
    · rw [h.settings] at hnow
      exact .inr hnow

end Step

/-- What is forgotten when an engine is cleared is no harm. -/
theorem step_clear (files : Files) (e : Engine) : Step files e e.clear :=
  ⟨rfl, rfl, rfl, fun _ h => h.clear, fun _ h => .inl h⟩

/-- To look for sources is a step. -/
theorem step_staticAvailable (files : Files) (e : Engine) : Step files e (e.staticAvailable files).2 := by
  unfold staticAvailable
  split
  · refine ⟨rfl, rfl, rfl, fun _ h => h, ?_⟩
    intro found hfound
    dsimp only at hfound
    cases hbefore : e.sourcesFound with
    | none =>
        rw [hbefore] at hfound
        exact .inr (Option.some.inj hfound).symm
    | some before =>
        rw [hbefore] at hfound
        exact .inl hfound
  · exact .refl files e

/-- To resolve an expression is a step. -/
theorem step_resolveSource (files : Files) (e : Engine) (file : FilePath) (expression : String)
    (cache : SchemaCache) : Step files e (e.resolveSource files file expression cache).2.1 := by
  have hroot := Resolver.root_answer files (resolveExpression (e.settings.root.join file) expression)
    e.resolver
  have hhonest (root : FilePath) (h : e.resolver.Honest files root) :=
    (h.answer (resolveExpression (e.settings.root.join file) expression)).2
  unfold resolveSource
  generalize Resolver.answer files (resolveExpression (e.settings.root.join file) expression) e.resolver =
    result at hroot hhonest
  rcases result with ⟨failure | descriptor, resolver⟩
  · exact ⟨rfl, rfl, hroot, hhonest, fun _ h => .inl h⟩
  · -- what is compiled is loaded by the same resolver, which has the same root afterwards
    refine ⟨rfl, rfl, (Resolver.root_follow files resolver _).trans hroot, ?_, fun _ h => .inl h⟩
    intro root h
    exact (hhonest root h).follow _

/-- To make a schema from sources is a step. -/
theorem step_sourceSchema (files : Files) (e : Engine) (file : FilePath) (expression : String)
    (cache : SchemaCache) : Step files e (e.sourceSchema files file expression cache).2.1 := by
  have havailable := step_staticAvailable files e
  unfold sourceSchema
  generalize e.staticAvailable files = result at havailable
  rcases result with ⟨_ | _, e'⟩
  · exact havailable
  · exact havailable.trans (step_resolveSource files e' file expression cache)

/-- To resolve a payload is a step. -/
theorem step_resolve (e : Engine) (around : Surroundings) (handler : Handler) (payload : Payload)
    (cache : SchemaCache) : Step around.files e (e.resolve around handler payload cache).2.1 := by
  unfold resolve
  split
  · exact .refl around.files e
  · split
    · exact .refl around.files e
    · dsimp only
      split
      · exact .refl around.files e
      next file expression _ =>
        have hsource := step_sourceSchema around.files e file expression cache
        split <;> exact hsource

/-- **What a request changes**, whatever it asks for. -/
theorem step_handle (e : Engine) (around : Surroundings) (cache : SchemaCache) (request : Request) :
    Step around.files e (e.handle around cache request).2.1 := by
  cases request with
  | resolve handler payload => exact step_resolve e around handler payload cache
  | resolveSource file expression => exact step_resolveSource around.files e file expression cache
  | available => exact step_staticAvailable around.files e
  | clear => exact step_clear around.files e

/-- Whatever was asked for, and however the files changed in between, settings, stored schemas and the root
of the workspace are the same. -/
theorem after_eq (e : Engine) (calls : List Call) :
    (e.after calls).settings = e.settings ∧ (e.after calls).store = e.store ∧
      (e.after calls).resolver.root = e.resolver.root := by
  induction calls generalizing e with
  | nil => exact ⟨rfl, rfl, rfl⟩
  | cons call calls ih =>
      have hstep := step_handle e call.around call.cache call.request
      obtain ⟨hsettings, hstore, hroot⟩ := ih (e.handle call.around call.cache call.request).2.1
      exact ⟨hsettings.trans hstep.settings, hstore.trans hstep.store, hroot.trans hstep.root⟩

/-! ## What the answers are taken from -/

/-- Two engines know the same of sources: one of them may have to look whether there are any, but then it
finds what the other one knows. -/
structure SameSources (files : Files) (e e' : Engine) : Prop where
  settings : e.settings = e'.settings
  resolver : e.resolver = e'.resolver
  found : e.sourcesFound.getD (files.hasSources e.settings.root) =
    e'.sourcesFound.getD (files.hasSources e'.settings.root)

/-- Two engines, each with an answer and the cache afterwards, say the same. -/
structure SameReply {α : Type} (files : Files) (reply reply' : α × Engine × SchemaCache) : Prop where
  answer : reply.1 = reply'.1
  cache : reply.2.2 = reply'.2.2
  engine : SameSources files reply.2.1 reply'.2.1

namespace SameSources

variable {cache : SchemaCache}

theorem reply {α : Type} (h : SameSources files e e') (a : α) (cache : SchemaCache) :
    SameReply files (a, e, cache) (a, e', cache) := ⟨rfl, rfl, h⟩

/-- Engines with the same sources have so after both are cleared. -/
theorem clear (h : SameSources files e e') : SameSources files e.clear e'.clear :=
  ⟨h.settings, congrArg Resolver.clear h.resolver, h.found⟩

/-- Engines with the same sources agree on whether there are any. -/
theorem staticAvailable (h : SameSources files e e') :
    (e.staticAvailable files).1 = (e'.staticAvailable files).1 ∧
      SameSources files (e.staticAvailable files).2 (e'.staticAvailable files).2 := by
  obtain ⟨settings, store, resolver, known⟩ := e
  obtain ⟨_, store', _, known'⟩ := e'
  obtain ⟨rfl, rfl, hfound⟩ := h
  unfold Engine.staticAvailable
  dsimp only at hfound ⊢
  cases settings.isStaticEnabled with
  | true => exact ⟨hfound, rfl, rfl, hfound⟩
  | false => exact ⟨rfl, rfl, rfl, hfound⟩

/-- Engines with the same sources resolve an expression in the same way. -/
theorem resolveSource (h : SameSources files e e') (file : FilePath) (expression : String)
    (cache : SchemaCache) :
    SameReply files (e.resolveSource files file expression cache)
      (e'.resolveSource files file expression cache) := by
  obtain ⟨settings, store, resolver, known⟩ := e
  obtain ⟨_, store', _, known'⟩ := e'
  obtain ⟨rfl, rfl, hfound⟩ := h
  unfold Engine.resolveSource
  dsimp only
  rcases Resolver.answer files (resolveExpression (settings.root.join file) expression) resolver with
    ⟨failure | descriptor, resolver⟩
  · exact ⟨rfl, rfl, rfl, rfl, hfound⟩
  · exact ⟨rfl, rfl, rfl, rfl, hfound⟩

/-- Engines with the same sources make the same schema from them. -/
theorem sourceSchema (h : SameSources files e e') (file : FilePath) (expression : String)
    (cache : SchemaCache) :
    SameReply files (e.sourceSchema files file expression cache)
      (e'.sourceSchema files file expression cache) := by
  obtain ⟨hfound, hengine⟩ := h.staticAvailable
  unfold Engine.sourceSchema
  generalize e.staticAvailable files = result, e'.staticAvailable files = result' at hfound hengine
  obtain ⟨found, e⟩ := result
  obtain ⟨found', e'⟩ := result'
  dsimp only at hfound hengine
  subst hfound
  -- Without sources nothing is asked, and both engines agree on whether there are any.
  cases found with
  | false => exact hengine.reply none cache
  | true =>
      have hsource := hengine.resolveSource file expression cache
      exact ⟨congrArg Except.toOption hsource.answer, hsource.cache, hsource.engine⟩

end SameSources

/-- The stages in order: what is live, what is stored, what the sources say, and the schema that says that
none is there. -/
theorem resolve_eq (e : Engine) (around : Surroundings) (handler : Handler) (payload : Payload)
    (cache : SchemaCache) :
    e.resolve around handler payload cache =
      match (payload.live? handler).bind fun handle => e.liveSchema? around handle cache with
      | some (schema, cache) => (⟨schema, .reflection⟩, e, cache)
      | none =>
        match payload.stored? e.store handler.name with
        | some schema => (⟨schema, .stored⟩, e, cache)
        | none =>
          match payload.place? handler with
          | none => (⟨.unavailable, .fallback⟩, e, cache)
          | some (file, expression) =>
            let (schema, e, cache) := e.sourceSchema around.files file expression cache
            match schema with
            | some schema => (⟨schema, .static⟩, e, cache)
            | none => (⟨.unavailable, .fallback⟩, e, cache) := rfl

/-- Engines that know the same of sources say the same of a payload with the same entries. -/
theorem SameSources.resolve {around : Surroundings} (h : SameSources around.files e e')
    {handler handler' : Handler} {payload : Payload}
    (hentries : payload.SameEntries handler handler' e.store e'.store) (cache : SchemaCache) :
    SameReply around.files (e.resolve around handler payload cache)
      (e'.resolve around handler' payload cache) := by
  -- The stages are tried in one order, and each looks at something the engines share.
  have hlive : e.liveSchema? around = e'.liveSchema? around := by
    unfold liveSchema?
    rw [h.settings]
  rw [resolve_eq, resolve_eq, hlive, hentries.live, hentries.stored, hentries.place]
  cases (payload.live? handler').bind fun handle => e'.liveSchema? around handle cache with
  | some found => exact h.reply _ found.2
  | none =>
      cases payload.stored? e'.store handler'.name with
      | some schema => exact h.reply _ cache
      | none =>
          cases payload.place? handler' with
          | none => exact h.reply _ cache
          | some place =>
              obtain ⟨file, expression⟩ := place
              have hsource := h.sourceSchema file expression cache
              dsimp only
              generalize e.sourceSchema around.files file expression cache = reply,
                e'.sourceSchema around.files file expression cache = reply' at hsource
              obtain ⟨schema, e, cache⟩ := reply
              obtain ⟨schema', e', cache'⟩ := reply'
              obtain ⟨hschema, hcache, hengine⟩ := hsource
              dsimp only at hschema hcache hengine
              subst hschema hcache
              cases schema <;> exact hengine.reply _ cache

/-- Engines that know the same of sources, and for which the same is stored, say the same. -/
theorem SameSources.handle {around : Surroundings} (h : SameSources around.files e e')
    (hstore : e.store = e'.store) (cache : SchemaCache) (request : Request) :
    SameReply around.files (e.handle around cache request) (e'.handle around cache request) := by
  cases request with
  | resolve handler payload =>
      have hentries : payload.SameEntries handler handler e.store e'.store := ⟨rfl, by rw [hstore], rfl⟩
      have hresolve := h.resolve hentries cache
      exact ⟨congrArg Answer.resolution hresolve.answer, hresolve.cache, hresolve.engine⟩
  | resolveSource file expression =>
      have hsource := h.resolveSource file expression cache
      exact ⟨congrArg Answer.schema hsource.answer, hsource.cache, hsource.engine⟩
  | available =>
      obtain ⟨hfound, hengine⟩ := h.staticAvailable
      exact ⟨congrArg Answer.available hfound, rfl, hengine⟩
  -- Clearing empties both caches.
  | clear => exact h.clear.reply _ []

/-! ## While the files stay as they are -/

/-- What an engine remembers is what the files say. -/
structure Honest (files : Files) (e : Engine) : Prop where
  resolver : e.resolver.Honest files e.settings.root
  found : ∀ found, e.sourcesFound = some found → found = files.hasSources e.settings.root

namespace Honest

/-- An honest engine stays honest in a step. -/
theorem step (h : e.Honest files) (hstep : Step files e e') : e'.Honest files where
  resolver := by
    rw [hstep.settings]
    exact hstep.honest _ h.resolver
  found found hfound := by
    rw [hstep.settings]
    exact (hstep.found found hfound).elim (h.found found) id

/-- An honest engine stays honest after calls over the same files. -/
theorem after (h : e.Honest files) {calls : List Call} (hfiles : ∀ call ∈ calls, call.around.files = files) :
    (e.after calls).Honest files := by
  induction calls generalizing e with
  | nil => exact h
  | cons call calls ih =>
      obtain ⟨hcall, hrest⟩ := List.forall_mem_cons.1 hfiles
      have hstep := step_handle e call.around call.cache call.request
      rw [hcall] at hstep
      exact ih (h.step hstep) hrest

end Honest

/-! ## Started engines -/

/-- The schemas that are stored for an engine of given settings, or why they cannot be read. -/
def storedFor (settings : Settings) (files : Files) : Except Failure SchemaStore :=
  match settings.schemaDirectory with
  | some directory => SchemaStore.ofDirectory files directory
  | none => .ok {}

/-- An engine that was started has what is stored for it, and remembers nothing. -/
theorem start_eq_ok_iff {settings : Settings} {e : Engine} :
    start settings files = .ok e ↔
      settings.problem? files = none ∧ storedFor settings files = .ok e.store ∧
        e = { settings, store := e.store, resolver := .ofRoot settings.root } := by
  -- Settings are checked first, then the stored schemas are read.
  have hstart : start settings files =
      match settings.problem? files with
      | some failure => .error failure
      | none => storedFor settings files >>= fun store =>
          .ok { settings, store, resolver := .ofRoot settings.root } := by
    unfold start storedFor
    cases settings.problem? files with
    | some failure => rfl
    | none => cases settings.schemaDirectory <;> rfl
  rw [hstart]
  cases settings.problem? files with
  | some failure => simp
  | none =>
      cases storedFor settings files with
      | error failure => simp [bind, Except.bind]
      | ok store =>
          constructor
          · rintro ⟨⟩
            exact ⟨rfl, rfl, rfl⟩
          · rintro ⟨-, hstore, he⟩
            rw [he, ← Except.ok.inj hstore]
            rfl

/-- An engine starts honest, since it remembers nothing. -/
theorem honest_start {settings : Settings} {files' : Files} (h : start settings files = .ok e) :
    e.Honest files' := by
  obtain ⟨-, -, he⟩ := start_eq_ok_iff.1 h
  rw [he]
  refine ⟨Resolver.honest_ofRoot files' settings.root, ?_⟩
  intro found hfound
  cases hfound

end Engine

end PayloadSchema
