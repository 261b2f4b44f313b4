import PayloadSchema.Proofs.Compile.Graph
import PayloadSchema.Proofs.Compile.Machine

/-!
# What a call leaves as it was

In a faithful graph an expansion marks the identity that was asked for, and takes just this mark back: the
guards let no identity through that is marked already, so that no mark is taken from an expansion further
out and no cached schema is replaced.

* `disciplined_moment` — at every moment the marks are those of the start and of the open expansions, and
  the cache has grown by other keys;
* `compileRef_returns` — what this comes to when a call returns;
* `call_discipline` — both for every call from outside, and where circles are cut.
-/

namespace PayloadSchema

/-- Under one policy two identities have two keys. -/
theorem cacheKey_injective (policy : RequiredPolicy) {X Y : String}
    (h : cacheKey policy X = cacheKey policy Y) : X = Y := by
  cases policy with
  | tagged => exact h
  | nonOptional => exact (String.append_left_inj _).1 h

/-- The placeholder of a circle says for which identity it stands. -/
theorem Schema.circular_injective {X Y : String} (h : Schema.circular X = Schema.circular Y) : X = Y := by
  have htext : circularMark ++ " " ++ X = circularMark ++ " " ++ Y :=
    Option.some.inj (congrArg Schema.description h)
  exact (String.append_right_inj _).1 htext

/-- The placeholders of the two guards are different. -/
theorem Schema.depthReached_ne_circular (X : String) : Schema.depthReached ≠ Schema.circular X := by
  intro h
  have htext : depthMark = circularMark ++ " " ++ X :=
    Option.some.inj (congrArg Schema.description h)
  have hchars := congrArg String.toList htext
  simp [depthMark, circularMark] at hchars

namespace Compile

variable {ρ : Type}

/-! ## Caches that grow -/

/-- Every entry of a cache is in another one, with the same schema. -/
def Extends (cache cache' : SchemaCache) : Prop :=
  ∀ key s, Dictionary.find? cache key = some s → Dictionary.find? cache' key = some s

theorem Extends.refl (cache : SchemaCache) : Extends cache cache := fun _ _ h => h

theorem Extends.trans {a b c : SchemaCache} (h : Extends a b) (h' : Extends b c) : Extends a c :=
  fun key s hs => h' key s (h key s hs)

/-- What was cached stays cached, with the same schema. -/
theorem Extends.cached {policy : RequiredPolicy} {X : String} {cache cache' : SchemaCache} {s : Schema}
    (h : Extends cache cache') (hs : cached? policy X cache = some s) : cached? policy X cache' = some s :=
  h _ s hs

/-- What is not cached in the end was not cached before. -/
theorem Extends.not_cached {policy : RequiredPolicy} {X : String} {cache cache' : SchemaCache}
    (h : Extends cache cache') (hX : cached? policy X cache' = none) : cached? policy X cache = none := by
  cases hs : cached? policy X cache with
  | none => rfl
  | some s =>
      rw [h.cached hs] at hX
      cases hX

/-- The cache with the schema of one identity more. -/
def keep (policy : RequiredPolicy) (X : String) (s : Schema) (cache : SchemaCache) : SchemaCache :=
  Dictionary.insert cache (cacheKey policy X) s

/-- What is kept for an identity is cached for it. -/
theorem cached?_keep_self (policy : RequiredPolicy) (X : String) (s : Schema) (cache : SchemaCache) :
    cached? policy X (keep policy X s cache) = some s :=
  Dictionary.find?_insert_self _ _ _

/-- What is kept for one identity leaves the others alone. -/
theorem cached?_keep_of_ne {policy : RequiredPolicy} {X Y : String} (s : Schema) (cache : SchemaCache)
    (h : Y ≠ X) : cached? policy Y (keep policy X s cache) = cached? policy Y cache :=
  Dictionary.find?_insert_of_ne _ _ fun hkey => h (cacheKey_injective policy hkey)

/-- What is kept for an identity that is not cached replaces nothing. -/
theorem extends_keep {policy : RequiredPolicy} {X : String} (s : Schema) {cache : SchemaCache}
    (h : cached? policy X cache = none) : Extends cache (keep policy X s cache) := by
  intro key s' hs'
  by_cases hkey : key = cacheKey policy X
  · rw [hkey] at hs'
    unfold cached? at h
    rw [h] at hs'
    cases hs'
  · unfold keep
    rwa [Dictionary.find?_insert_of_ne _ _ hkey]

/-- An expansion during which no guard fired is kept. -/
theorem finish_cache_of_eq {policy : RequiredPolicy} {d : Descriptor (TypeRef ρ)} {outer : Context}
    (s : Schema) {session : Session ρ} (h : session.context.guardHits = outer.guardHits) :
    (finish policy d outer s session).cache = keep policy d.identity s session.cache :=
  if_pos h

/-- An expansion during which a guard fired is not kept. -/
theorem finish_cache_of_ne {policy : RequiredPolicy} {d : Descriptor (TypeRef ρ)} {outer : Context}
    (s : Schema) {session : Session ρ} (h : session.context.guardHits ≠ outer.guardHits) :
    (finish policy d outer s session).cache = session.cache :=
  if_neg h

/-- Nothing is lost at the end of an expansion of what is not cached. -/
theorem extends_finish {policy : RequiredPolicy} {d : Descriptor (TypeRef ρ)} (outer : Context)
    (s : Schema) {session : Session ρ} (h : cached? policy d.identity session.cache = none) :
    Extends session.cache (finish policy d outer s session).cache := by
  by_cases hhits : session.context.guardHits = outer.guardHits
  · rw [finish_cache_of_eq s hhits]
    exact extends_keep s h
  · rw [finish_cache_of_ne s hhits]
    exact Extends.refl _

/-- At the end of an expansion no other identity is kept. -/
theorem cached?_finish_of_ne {policy : RequiredPolicy} {d : Descriptor (TypeRef ρ)} (outer : Context)
    (s : Schema) (session : Session ρ) {X : String} (h : X ≠ d.identity) :
    cached? policy X (finish policy d outer s session).cache = cached? policy X session.cache := by
  by_cases hhits : session.context.guardHits = outer.guardHits
  · rw [finish_cache_of_eq s hhits, cached?_keep_of_ne s _ h]
  · rw [finish_cache_of_ne s hhits]

/-! ## Contexts that go on -/

/-- Nothing of a context has changed but that guards may have fired. -/
structure Continues (c c' : Context) : Prop where
  visited : c'.visited = c.visited
  modulePath : c'.modulePath = c.modulePath
  depth : c'.depth = c.depth
  maxDepth : c'.maxDepth = c.maxDepth
  guardHits_le : c.guardHits ≤ c'.guardHits

theorem Continues.refl (c : Context) : Continues c c := ⟨rfl, rfl, rfl, rfl, Nat.le_refl _⟩

/-- A context that goes on from one that goes on goes on from the first. -/
theorem Continues.trans {a b c : Context} (h : Continues a b) (h' : Continues b c) : Continues a c :=
  ⟨h'.visited.trans h.visited, h'.modulePath.trans h.modulePath, h'.depth.trans h.depth,
    h'.maxDepth.trans h.maxDepth, Nat.le_trans h.guardHits_le h'.guardHits_le⟩

/-- When a guard fires the context goes on. -/
theorem continues_hit (c : Context) : Continues c c.hit := ⟨rfl, rfl, rfl, rfl, Nat.le_succ _⟩

theorem Continues.sameDepth {c c' : Context} (h : Continues c c') : SameDepth c c' :=
  ⟨h.depth, h.maxDepth⟩

/-- Where no guard fired nothing has changed. -/
theorem Continues.eq_of_guardHits {c c' : Context} (h : Continues c c')
    (hhits : c'.guardHits = c.guardHits) : c' = c := by
  rcases h with ⟨hvisited, hmodule, hdepth, hmax, -⟩
  cases c
  cases c'
  simp_all

/-- An identity that is entered is the latest of those that are being expanded. -/
theorem visited_enter {τ : Type} {c : Context} {d : Descriptor τ} (h : d.identity ∉ c.visited) :
    (c.enter d).visited = d.identity :: c.visited :=
  List.insert_of_not_mem h

/-- On the way out of an expansion everything is as it was on the way in, if the mark was a new one. -/
theorem Continues.leave {τ : Type} {c c' : Context} {d : Descriptor τ} (hnew : d.identity ∉ c.visited)
    (h : Continues (c.enter d) c') : Continues c (c'.leave d c.modulePath) := by
  refine ⟨?_, rfl, ?_, h.maxDepth, h.guardHits_le⟩
  · show c'.visited.erase d.identity = c.visited
    rw [h.visited, visited_enter hnew, List.erase_cons_head]
  · show c'.depth - 1 = c.depth
    rw [h.depth]
    rfl

/-! ## Contexts inside open expansions -/

/-- A context inside open expansions: each marked an identity that was new outside, and what is outside
the outermost goes on from the start. -/
def Nested (start : Context) : List (Expansion ρ) → Context → Prop
  | [], c => Continues start c
  | e :: es, c =>
    Continues (e.outer.enter e.descriptor) c ∧ e.descriptor.identity ∉ e.outer.visited ∧
      Nested start es e.outer

variable {start c c' : Context} {es : List (Expansion ρ)}

/-- The open expansions are still so nested when the context goes on. -/
theorem Nested.continues (h : Nested start es c) (hc : Continues c c') : Nested start es c' := by
  cases es with
  | nil => exact Continues.trans h hc
  | cons e es => exact ⟨h.1.trans hc, h.2⟩

/-- The marks are those of the open expansions and of the start. -/
theorem Nested.visited (h : Nested start es c) :
    c.visited = es.map (·.descriptor.identity) ++ start.visited := by
  induction es generalizing c with
  | nil => exact Continues.visited h
  | cons e es ih => rw [h.1.visited, visited_enter h.2.1, ih h.2.2, List.map_cons, List.cons_append]

/-- No two open expansions have one identity, and none has an identity that was marked at the start. -/
theorem Nested.distinct (h : Nested start es c) :
    (es.map (·.descriptor.identity)).Nodup ∧
      ∀ X ∈ es.map (·.descriptor.identity), X ∉ start.visited := by
  induction es generalizing c with
  | nil =>
      refine ⟨List.nodup_nil, ?_⟩
      intro X hX
      cases hX
  | cons e es ih =>
      have hrest := ih h.2.2
      have hnew := h.2.1
      -- What is visited around the newest expansion is what the older ones opened, so it differs from both.
      rw [h.2.2.visited, List.mem_append, not_or] at hnew
      rw [List.map_cons]
      refine ⟨List.nodup_cons.2 ⟨hnew.1, hrest.1⟩, ?_⟩
      intro X hX
      rcases List.mem_cons.1 hX with rfl | hX
      · exact hnew.2
      · exact hrest.2 X hX

/-! ## Moments of a call in a graph -/

/-- What is asked for and what is still to be asked for belongs to the graph. -/
structure Within (G : TypeGraph ρ) (m : Moment ρ) : Prop where
  asked : ∀ t, m.focus = .ask t → t ∈ G.refs
  pending : ∀ frame ∈ m.frames, ∀ t ∈ frame.pending, t ∈ G.refs

/-- A hop of the key walk asks for no schema. -/
theorem hop_ne_ask (env : Environment ρ) (d : Descriptor (TypeRef ρ)) (seen : List String)
    (t : TypeRef ρ) : (hop env d seen).1 ≠ .ask t := by
  unfold hop
  split
  · simp
  · split
    · simp
    · split <;> simp

/-- A step of the machine stays in the graph. -/
theorem within_step {G : TypeGraph ρ} (policy : RequiredPolicy) {m : Moment ρ} (h : Within G m) :
    Within G (step G.env policy m) := by
  rcases m with ⟨focus, frames, session⟩
  rcases h with ⟨hasked, hpending⟩
  -- Only `ask` opens a frame and only `resume` asks for a part: both take references from a shape, and the
  -- graph is closed under those.
  cases focus with
  | ask t =>
      cases hguard : guard? policy t.identity session with
      | some answer =>
          simp only [step, hguard]
          exact ⟨fun _ hfocus => (by cases hfocus), hpending⟩
      | none =>
          simp only [step, hguard]
          refine ⟨fun _ hfocus => (by cases hfocus), ?_⟩
          intro frame hframe u hu
          rcases List.mem_cons.1 hframe with rfl | hframe
          · exact TypeGraph.mem_of_mem_parts (hasked t rfl) u hu
          · exact hpending frame hframe u hu
  | resume =>
      cases frames with
      | nil => exact ⟨hasked, hpending⟩
      | cons frame frames =>
          have htop := hpending frame List.mem_cons_self
          have hrest : ∀ f ∈ frames, ∀ t ∈ f.pending, t ∈ G.refs :=
            fun f hf => hpending f (List.mem_cons_of_mem _ hf)
          cases hparts : frame.pending with
          | cons t ts =>
              rw [hparts] at htop
              simp only [step, Frame.resume, hparts]
              refine ⟨?_, ?_⟩
              · intro u hu
                cases hu
                exact htop t List.mem_cons_self
              · intro f hf u hu
                rcases List.mem_cons.1 hf with rfl | hf
                · exact htop u (List.mem_cons_of_mem t hu)
                · exact hrest f hf u hu
          | nil =>
              cases hshape : frame.expansion.descriptor.shape <;>
                simp only [step, Frame.resume, hparts, hshape] <;>
                exact ⟨fun _ hfocus => (by cases hfocus), hpending⟩
  | key d seen =>
      exact ⟨fun t hfocus => absurd hfocus (hop_ne_ask G.env d seen t), hpending⟩
  | close isKey =>
      cases frames with
      | nil => exact ⟨hasked, hpending⟩
      | cons frame frames =>
          refine ⟨fun _ hfocus => (by cases hfocus), ?_⟩
          intro f hf
          exact hpending f (List.mem_cons_of_mem _ hf)
  | answer s =>
      cases frames with
      | nil => exact ⟨hasked, hpending⟩
      | cons frame frames =>
          refine ⟨fun _ hfocus => (by cases hfocus), ?_⟩
          intro f hf u hu
          rcases List.mem_cons.1 hf with rfl | hf
          · exact hpending frame List.mem_cons_self u hu
          · exact hpending f (List.mem_cons_of_mem _ hf) u hu

/-- The marks are those of the start and of the open expansions; nothing is cached for an open expansion,
and nothing more than at the start for an identity that was marked then; no entry is lost. -/
structure Disciplined (policy : RequiredPolicy) (start : Session ρ) (m : Moment ρ) : Prop where
  nested : Nested start.context m.expansions m.session.context
  kept : Extends start.cache m.session.cache
  opened : ∀ X ∈ m.opened, cached? policy X m.session.cache = none
  marked : ∀ X ∈ start.context.visited,
    cached? policy X m.session.cache = cached? policy X start.cache

section

variable {policy : RequiredPolicy} {start : Session ρ} {m m' : Moment ρ}

/-- A step that opens and closes nothing. -/
theorem Disciplined.quiet (h : Disciplined policy start m) (hes : m'.expansions = m.expansions)
    (hcache : m'.session.cache = m.session.cache)
    (hcontinues : Continues m.session.context m'.session.context) : Disciplined policy start m' := by
  rcases h with ⟨hnested, hkept, hopened, hmarked⟩
  unfold Moment.opened at hopened
  constructor
  · rw [hes]
    exact hnested.continues hcontinues
  · rwa [hcache]
  · unfold Moment.opened
    rwa [hes, hcache]
  · rwa [hcache]

/-- A step that opens an expansion marks an identity that was neither marked nor cached. -/
theorem Disciplined.opening (h : Disciplined policy start m) {d : Descriptor (TypeRef ρ)}
    (hes : m'.expansions = ⟨d, m.session.context⟩ :: m.expansions)
    (hcache : m'.session.cache = m.session.cache)
    (hcontext : m'.session.context = m.session.context.enter d)
    (hnew : d.identity ∉ m.session.context.visited)
    (hfree : cached? policy d.identity m.session.cache = none) : Disciplined policy start m' := by
  -- The cache is the one before the step; the new expansion was looked up and not found, so it joins the
  -- opened ones.
  rcases h with ⟨hnested, hkept, hopened, hmarked⟩
  constructor
  · rw [hes, hcontext]
    exact ⟨Continues.refl _, hnew, hnested⟩
  · rwa [hcache]
  · unfold Moment.opened
    rw [hes, hcache, List.map_cons]
    intro X hX
    rcases List.mem_cons.1 hX with rfl | hX
    · exact hfree
    · exact hopened X hX
  · rwa [hcache]

/-- A step that closes an expansion takes its mark back, and may keep a schema for its identity, which was
not cached and which no other expansion has. -/
theorem Disciplined.closing (h : Disciplined policy start m) {e : Expansion ρ} {es : List (Expansion ρ)}
    {s : Schema} (hes : m.expansions = e :: es) (hes' : m'.expansions = es)
    (hsession : m'.session = finish policy e.descriptor e.outer s m.session) :
    Disciplined policy start m' := by
  rcases h with ⟨hnested, hkept, hopened, hmarked⟩
  unfold Moment.opened at hopened
  rw [hes] at hnested hopened
  -- The expansion that closes stands nowhere else on the stack: writing its entry leaves the older ones
  -- uncached.
  have hdistinct := hnested.distinct
  rw [List.map_cons] at hopened hdistinct
  rcases hnested with ⟨hcontinues, hnew, houter⟩
  have hfree := hopened _ List.mem_cons_self
  constructor
  · rw [hes', hsession]
    exact houter.continues (hcontinues.leave hnew)
  · rw [hsession]
    exact hkept.trans (extends_finish e.outer s hfree)
  · unfold Moment.opened
    rw [hes', hsession]
    intro X hX
    have hne : X ≠ e.descriptor.identity := by
      rintro rfl
      exact (List.nodup_cons.1 hdistinct.1).1 hX
    rw [cached?_finish_of_ne e.outer s m.session hne]
    exact hopened X (List.mem_cons_of_mem _ hX)
  · rw [hsession]
    intro X hX
    have hne : X ≠ e.descriptor.identity := by
      rintro rfl
      exact hdistinct.2 _ List.mem_cons_self hX
    rw [cached?_finish_of_ne e.outer s m.session hne]
    exact hmarked X hX

end

/-- **Step lemma.** A step of the machine keeps the discipline. -/
theorem disciplined_step {G : TypeGraph ρ} (hG : G.Faithful) {policy : RequiredPolicy}
    {start : Session ρ} {m : Moment ρ} (hwithin : Within G m) (h : Disciplined policy start m) :
    Disciplined policy start (step G.env policy m) := by
  rcases step_cases G.env policy m with ⟨hes, hcache, hctx⟩ |
    ⟨t, hask, hcached, hcut, hes, hsession⟩ | ⟨e, es, s, hes, hes', hsession⟩
  · refine h.quiet hes hcache ?_
    rcases hctx with hctx | hctx
    · rw [hctx]
      exact Continues.refl _
    · rw [hctx]
      exact continues_hit _
  · -- the identity that is opened is the one that the guards let through
    have hidentity : (t.load G.env).identity = t.identity := hG t (hwithin.asked t hask)
    refine h.opening hes ?_ ?_ ?_ ?_
    · rw [hsession]
      rfl
    · rw [hsession]
      rfl
    · rw [hidentity]
      exact (cut?_eq_none_iff.1 hcut).1
    · rw [hidentity]
      exact hcached
  · exact h.closing hes hes' hsession

/-- At every moment of a call in a faithful graph the marks are those of the start and of the open
expansions, and the cache has grown by other keys. -/
theorem disciplined_moment {G : TypeGraph ρ} (hG : G.Faithful) (policy : RequiredPolicy)
    {r : Request ρ} (hr : r.root ∈ G.refs) (session : Session ρ) (k : Nat) :
    Disciplined policy session (moment G.env policy r session k) := by
  -- The discipline alone is not inductive: a step keeps it only while every reference met belongs to the
  -- graph.
  have hboth : Within G (moment G.env policy r session k) ∧
      Disciplined policy session (moment G.env policy r session k) := by
    refine moment_invariant G.env policy (P := fun m => Within G m ∧ Disciplined policy session m)
      r session ⟨⟨?_, ?_⟩, ?_⟩ ?_ k
    · intro t ht
      cases ht
      exact hr
    · intro frame hframe
      cases hframe
    · exact ⟨Continues.refl _, Extends.refl _, fun _ hX => (by cases hX), fun _ _ => rfl⟩
    · intro m hm
      exact ⟨within_step policy hm.1, disciplined_step hG hm.1 hm.2⟩
  exact hboth.2

/-! ## When a call returns -/

/-- How a session is after a call: the context goes on, no entry is lost, and nothing is kept for what was
marked before. -/
structure Returns (policy : RequiredPolicy) (before after : Session ρ) : Prop where
  continues : Continues before.context after.context
  kept : Extends before.cache after.cache
  marked : ∀ X ∈ before.context.visited, cached? policy X after.cache = cached? policy X before.cache

theorem Returns.refl (policy : RequiredPolicy) (session : Session ρ) : Returns policy session session :=
  ⟨Continues.refl _, Extends.refl _, fun _ _ => rfl⟩

theorem Returns.trans {policy : RequiredPolicy} {a b d : Session ρ} (h : Returns policy a b)
    (h' : Returns policy b d) : Returns policy a d := by
  refine ⟨h.continues.trans h'.continues, h.kept.trans h'.kept, ?_⟩
  intro X hX
  rw [h'.marked X (by rw [h.continues.visited]; exact hX), h.marked X hX]

/-- A call in a faithful graph returns with the session in order. -/
theorem compileRef_returns {G : TypeGraph ρ} (hG : G.Faithful) (policy : RequiredPolicy) {t : TypeRef ρ}
    (ht : t ∈ G.refs) (session : Session ρ) :
    Returns policy session (compileRef G.env policy t session).2 := by
  rcases moment_returns G.env policy (.reference t) session with ⟨k, hk⟩
  have h := disciplined_moment hG policy (r := .reference t) ht session k
  rw [hk] at h
  exact ⟨h.nested, h.kept, h.marked⟩

/-- So do calls one after the other. -/
theorem askAll_returns {G : TypeGraph ρ} (hG : G.Faithful) (policy : RequiredPolicy)
    {ts : List (TypeRef ρ)} (hts : ∀ t ∈ ts, t ∈ G.refs) (session : Session ρ) :
    Returns policy session (askAll (compileRef G.env policy) ts session).2 :=
  askAll_preserves (P := fun s => Returns policy session s) _ ts
    (fun t ht s hs => hs.trans (compileRef_returns hG policy (hts t ht) s)) session
    (Returns.refl policy session)

/-- Inside an expansion nothing is cached for the identity that is expanded. -/
theorem not_cached_inside {G : TypeGraph ρ} (hG : G.Faithful) (policy : RequiredPolicy) {t : TypeRef ρ}
    (ht : t ∈ G.refs) {session : Session ρ} (hcached : cached? policy t.identity session.cache = none) :
    cached? policy t.identity (askAll (compileRef G.env policy) (t.load G.env).shape.parts
      (enterRef G.env t session)).2.cache = none := by
  have hvisited : t.identity ∈ (enterRef G.env t session).context.visited := by
    show t.identity ∈ session.context.visited.insert (t.load G.env).identity
    rw [hG t ht]
    exact List.mem_insert_self
  have hreturns := askAll_returns hG policy (TypeGraph.mem_of_mem_parts ht) (enterRef G.env t session)
  exact (hreturns.marked _ hvisited).trans hcached

/-- What is cached inside an expansion is cached after it. -/
theorem extends_of_open {G : TypeGraph ρ} (hG : G.Faithful) {policy : RequiredPolicy} {t : TypeRef ρ}
    (ht : t ∈ G.refs) {session : Session ρ} (hcached : cached? policy t.identity session.cache = none)
    (hopen : cut? t.identity session.context = none) :
    Extends (askAll (compileRef G.env policy) (t.load G.env).shape.parts
      (enterRef G.env t session)).2.cache (compileRef G.env policy t session).2.cache := by
  have hnone := not_cached_inside hG policy ht hcached
  rw [← hG t ht] at hnone
  rw [compileRef_of_open G.env hcached hopen]
  exact extends_finish session.context _ hnone

/-- **Discipline of the context and the cache.** In a faithful graph, a call from any session returns with
the depth, the marks, the module and the limit as they were; the guards have fired no less often, and no
cached schema is lost or replaced. At every moment the marks are those of the start and of the open
expansions, which are all distinct and new, so that a circle is cut only inside an expansion of what it
leads back to or at what was marked from the start. -/
theorem call_discipline (G : TypeGraph ρ) (hG : G.Faithful) (policy : RequiredPolicy) (r : Request ρ)
    (hr : r.root ∈ G.refs) (session : Session ρ) :
    Continues session.context (r.run G.env policy session).2.context ∧
    Extends session.cache (r.run G.env policy session).2.cache ∧
    (∃ k, moment G.env policy r session k =
      ⟨.answer (r.run G.env policy session).1, [], (r.run G.env policy session).2⟩) ∧
    ∀ k,
      (moment G.env policy r session k).session.context.visited =
        (moment G.env policy r session k).opened ++ session.context.visited ∧
      (moment G.env policy r session k).opened.Nodup ∧
      (∀ X ∈ (moment G.env policy r session k).opened, X ∉ session.context.visited) ∧
      ∀ t X, (moment G.env policy r session k).focus = .ask t →
        cached? policy t.identity (moment G.env policy r session k).session.cache = none →
        (moment G.env policy r session (k + 1)).focus = .answer (.circular X) →
        X ∈ (moment G.env policy r session k).opened ∨ X ∈ session.context.visited := by
  have hreturns := compileRef_returns hG policy hr session
  rw [← Request.run_eq] at hreturns
  refine ⟨hreturns.continues, hreturns.kept, moment_returns G.env policy r session, ?_⟩
  intro k
  have hnested := (disciplined_moment hG policy hr session k).nested
  refine ⟨hnested.visited, hnested.distinct.1, hnested.distinct.2, ?_⟩
  -- the placeholder of a circle is given only for what is marked, and it names what it is given for
  intro t X hask hcached hanswer
  have hvisited := hnested.visited
  rw [moment_succ] at hanswer
  generalize moment G.env policy r session k = m at *
  rcases m with ⟨focus, frames, inside⟩
  cases hask
  cases hcut : cut? t.identity inside.context with
  | none => simp [step, guard?_of_not_cached hcached, hcut] at hanswer
  | some cut =>
      simp only [step, guard?_of_not_cached hcached, hcut, Option.map_some, Focus.answer.injEq] at hanswer
      cases cut with
      | depth => exact absurd hanswer (Schema.depthReached_ne_circular X)
      | circle =>
          have hX : t.identity = X := Schema.circular_injective hanswer
          have hmem := cut?_eq_circle_iff.1 hcut
          rw [hX] at hmem
          show X ∈ Moment.opened _ ∨ _
          rw [← List.mem_append]
          show X ∈ List.map _ _ ++ _
          rw [← hvisited]
          exact hmem

/-- A tree whose subtrees are marked already is cut at the subtrees; the marks stay, and so does what was
cached. -/
theorem call_discipline_tree :
    Tree.graph.Faithful ∧ Tree.self ∈ Tree.graph.refs ∧
      (compileRef Tree.env .tagged Tree.self
        ⟨[("Old", .dynamic)], { visited := ["Vec<Tree>"], maxDepth := 3 }, []⟩).2.context.visited =
          ["Vec<Tree>"] ∧
      Extends [("Old", .dynamic)] (compileRef Tree.env .tagged Tree.self
        ⟨[("Old", .dynamic)], { visited := ["Vec<Tree>"], maxDepth := 3 }, []⟩).2.cache := by
  have hself : Tree.self ∈ Tree.graph.refs := List.mem_cons_self
  have h := call_discipline Tree.graph Tree.faithful .tagged (.reference Tree.self) hself
    ⟨[("Old", .dynamic)], { visited := ["Vec<Tree>"], maxDepth := 3 }, []⟩
  exact ⟨Tree.faithful, hself, h.1.visited, h.2.1⟩

end Compile

end PayloadSchema
