import PayloadSchema.Proofs.Compile.Growth

/-!
# Calling again

A call looks into the cache before it looks at the depth. So what was cut off at the depth limit early in a
call, and compiled completely later in it, is cut off no more when the call is made again. This is the only
way in which a second call can differ from the first: what is cut at a circle stays uncached, and all else
is compiled alike.

* `Fires` — in a call a guard fires for an identity;
* `compileRef_again` — where nothing that was cut off is cached in the end, the same call over the last
  cache repeats the first;
* `compileRef_firesLess` — where something is, guards fire less often;
* `run_again_iff` — both for a call from outside, where only what is cut at the depth limit matters;
* `run_again_ne` — a call that gives another schema when it is made again.
-/

namespace PayloadSchema

namespace Compile

variable {ρ : Type}

/-! ## Where guards fire -/

/-- In a call for a reference a guard fires for an identity: for the reference itself, or in a call for one
of its parts, when those before it have been asked for. -/
inductive Fires (env : Environment ρ) (policy : RequiredPolicy) :
    TypeRef ρ → Session ρ → Cut → String → Prop where
  | here {t : TypeRef ρ} {session : Session ρ} {cut : Cut}
      (hcached : cached? policy t.identity session.cache = none)
      (hcut : cut? t.identity session.context = some cut) :
      Fires env policy t session cut t.identity
  | inside {t u : TypeRef ρ} {session : Session ρ} {cut : Cut} {X : String}
      (before after : List (TypeRef ρ))
      (hcached : cached? policy t.identity session.cache = none)
      (hopen : cut? t.identity session.context = none)
      (hparts : (t.load env).shape.parts = before ++ u :: after)
      (hfires : Fires env policy u (askAll (compileRef env policy) before (enterRef env t session)).2
        cut X) :
      Fires env policy t session cut X

/-- A guard fires in one of the calls for references that are asked for one after the other. -/
def FiresAmong (env : Environment ρ) (policy : RequiredPolicy) (ts : List (TypeRef ρ))
    (session : Session ρ) (cut : Cut) (X : String) : Prop :=
  ∃ before u after, ts = before ++ u :: after ∧
    Fires env policy u (askAll (compileRef env policy) before session).2 cut X

section

variable {env : Environment ρ} {policy : RequiredPolicy} {t : TypeRef ρ} {ts : List (TypeRef ρ)}
  {session : Session ρ} {cut : Cut} {X : String}

theorem not_firesAmong_nil : ¬ FiresAmong env policy [] session cut X := by
  rintro ⟨before, u, after, hnil, -⟩
  cases before <;> cases hnil

/-- A guard fires for the first of several references, or in the calls for the others. -/
theorem firesAmong_cons :
    FiresAmong env policy (t :: ts) session cut X ↔
      Fires env policy t session cut X ∨
        FiresAmong env policy ts (compileRef env policy t session).2 cut X := by
  constructor
  · -- The part that fires is the first one or stands behind it, after the session the first one leaves.
    rintro ⟨before, u, after, hts, hfires⟩
    cases before with
    | nil =>
        cases hts
        exact Or.inl hfires
    | cons v before =>
        cases hts
        exact Or.inr ⟨before, u, after, rfl, hfires⟩
  · rintro (hfires | ⟨before, u, after, rfl, hfires⟩)
    · exact ⟨[], t, ts, rfl, hfires⟩
    · exact ⟨t :: before, u, after, rfl, hfires⟩

/-- Nothing fires for what is cached. -/
theorem Fires.not_cached (h : Fires env policy t session cut X) :
    cached? policy t.identity session.cache = none := by
  cases h with
  | here hcached => exact hcached
  | inside _ _ hcached => exact hcached

/-- Where a guard fires for a reference, it is the only one that does. -/
theorem Fires.eq_of_cut {guard : Cut} (h : Fires env policy t session cut X)
    (hcut : cut? t.identity session.context = some guard) : cut = guard ∧ X = t.identity := by
  cases h with
  | here _ hcut' =>
      rw [hcut] at hcut'
      cases hcut'
      exact ⟨rfl, rfl⟩
  | inside _ _ _ hopen =>
      rw [hcut] at hopen
      cases hopen

/-- Inside an expansion guards fire in the calls for the parts. -/
theorem fires_iff_of_open (hcached : cached? policy t.identity session.cache = none)
    (hopen : cut? t.identity session.context = none) :
    Fires env policy t session cut X ↔
      FiresAmong env policy (t.load env).shape.parts (enterRef env t session) cut X := by
  constructor
  · intro h
    cases h with
    | here _ hcut =>
        rw [hopen] at hcut
        cases hcut
    | inside before after _ _ hparts hfires => exact ⟨before, _, after, hparts, hfires⟩
  · rintro ⟨before, u, after, hparts, hfires⟩
    exact .inside before after hcached hopen hparts hfires

end

/-! ## Firing and the count of hits -/

/-- At the end of an expansion as many guards have fired as when all parts were answered. -/
theorem guardHits_of_open (env : Environment ρ) {policy : RequiredPolicy} {t : TypeRef ρ}
    {session : Session ρ} (hcached : cached? policy t.identity session.cache = none)
    (hopen : cut? t.identity session.context = none) :
    (compileRef env policy t session).2.context.guardHits =
      (askAll (compileRef env policy) (t.load env).shape.parts
        (enterRef env t session)).2.context.guardHits := by
  rw [compileRef_of_open env hcached hopen]
  rfl

/-- Where no guard fires in calls one after the other the count of hits stays. -/
theorem askAll_guardHits_of_not_fires (env : Environment ρ) (policy : RequiredPolicy)
    (ts : List (TypeRef ρ)) (session : Session ρ)
    (hcalls : ∀ u inside, SameDepth session.context inside.context →
      (∀ cut X, ¬ Fires env policy u inside cut X) →
      (compileRef env policy u inside).2.context.guardHits = inside.context.guardHits)
    (h : ∀ cut X, ¬ FiresAmong env policy ts session cut X) :
    (askAll (compileRef env policy) ts session).2.context.guardHits = session.context.guardHits := by
  induction ts generalizing session with
  | nil => rfl
  | cons t ts ih =>
      rw [askAll_cons]
      -- No part fires where it is asked, and each is asked in the session the earlier ones leave.
      have hfirst : ∀ cut X, ¬ Fires env policy t session cut X := by
        intro cut X hfires
        exact h cut X (firesAmong_cons.2 (Or.inl hfires))
      have hothers : ∀ cut X, ¬ FiresAmong env policy ts (compileRef env policy t session).2 cut X := by
        intro cut X hfires
        exact h cut X (firesAmong_cons.2 (Or.inr hfires))
      have hdepth := compileRef_depth env policy t session
      have hhead := hcalls t session ⟨rfl, rfl⟩ hfirst
      have htail := ih (compileRef env policy t session).2
        (fun u inside hinside => hcalls u inside (hdepth.trans hinside)) hothers
      exact htail.trans hhead

/-- Where no guard fires the count of hits stays. -/
theorem guardHits_of_not_fires (env : Environment ρ) (policy : RequiredPolicy) (t : TypeRef ρ)
    (session : Session ρ) (h : ∀ cut X, ¬ Fires env policy t session cut X) :
    (compileRef env policy t session).2.context.guardHits = session.context.guardHits := by
  induction t, session using compileRef_induction env with
  | hcall t session ih =>
      cases hcached : cached? policy t.identity session.cache with
      | some s => rw [compileRef_of_cached env hcached]
      | none =>
          cases hcut : cut? t.identity session.context with
          | some cut => exact absurd (.here hcached hcut) (h cut t.identity)
          | none =>
              have hquiet : ∀ cut X,
                  ¬ FiresAmong env policy (t.load env).shape.parts (enterRef env t session) cut X := by
                intro cut X hfires
                exact h cut X ((fires_iff_of_open hcached hcut).2 hfires)
              rw [guardHits_of_open env hcached hcut]
              exact askAll_guardHits_of_not_fires env policy _ (enterRef env t session) (ih hcut) hquiet

variable {G : TypeGraph ρ} {policy : RequiredPolicy}

/-- Around the call for a part: what was asked for before it and what is asked for after it returns. -/
theorem returns_around (hf : G.Faithful) (policy : RequiredPolicy) {t u : TypeRef ρ} (ht : t ∈ G.refs)
    {before after : List (TypeRef ρ)} (hparts : (t.load G.env).shape.parts = before ++ u :: after)
    (session : Session ρ) :
    u ∈ (t.load G.env).shape.parts ∧
      Returns policy session (askAll (compileRef G.env policy) before session).2 ∧
      Returns policy
        (compileRef G.env policy u (askAll (compileRef G.env policy) before session).2).2
        (askAll (compileRef G.env policy) (t.load G.env).shape.parts session).2 := by
  -- Both halves of the list consist of parts, so each returns to where it started.
  have hmem : ∀ v ∈ before ++ u :: after, v ∈ G.refs := by
    intro v hv
    rw [← hparts] at hv
    exact TypeGraph.mem_of_mem_parts ht v hv
  obtain ⟨hbefore, hrest⟩ := List.forall_mem_append.1 hmem
  obtain ⟨-, hafter⟩ := List.forall_mem_cons.1 hrest
  rw [hparts, askAll_append, askAll_cons]
  refine ⟨List.mem_append_right _ List.mem_cons_self, ?_, ?_⟩
  · exact askAll_returns hf policy hbefore session
  · exact askAll_returns hf policy hafter _

/-- Where a guard fires the count of hits rises. -/
theorem Fires.guardHits_lt (hf : G.Faithful) {t : TypeRef ρ} {session : Session ρ} {cut : Cut}
    {X : String} (h : Fires G.env policy t session cut X) (ht : t ∈ G.refs) :
    session.context.guardHits < (compileRef G.env policy t session).2.context.guardHits := by
  induction h with
  | here hcached hcut =>
      rw [compileRef_of_cut G.env hcached hcut]
      exact Nat.lt_succ_self _
  | @inside t u session cut X before after hcached hopen hparts _ ih =>
      rcases returns_around hf policy ht hparts (enterRef G.env t session) with ⟨hu, hbefore, hafter⟩
      rw [guardHits_of_open G.env hcached hopen]
      -- the hits only grow before and after the call in which the guard fires
      have hle := hbefore.continues.guardHits_le
      have hlt := ih (TypeGraph.mem_of_mem_parts ht u hu)
      have hle' := hafter.continues.guardHits_le
      exact Nat.lt_of_le_of_lt hle (Nat.lt_of_lt_of_le hlt hle')

/-! ## What is cut off and what is cached in the end -/

/-- If the reference of a call is cached in the end, then all is for which a guard fires in the call: what
is cached has cached parts. -/
theorem Fires.cached_of_cached (hf : G.Faithful) (hc : G.Consistent) {cache last : SchemaCache}
    (hlast : Grows G policy cache last) {t : TypeRef ρ} {session : Session ρ} {cut : Cut} {X : String}
    (h : Fires G.env policy t session cut X) (ht : t ∈ G.refs) (hcache : Extends cache session.cache)
    (hcached : ∃ s, cached? policy t.identity last = some s) :
    ∃ s, cached? policy X last = some s := by
  induction h with
  | here => exact hcached
  | @inside t u session cut X before after hnone hopen hparts _ ih =>
      rcases returns_around hf policy ht hparts (enterRef G.env t session) with ⟨hu, hbefore, -⟩
      rcases hcached with ⟨s, hs⟩
      have hpart := hlast.parts_cached hc ht hs (hcache.not_cached hnone) u hu
      exact ih (TypeGraph.mem_of_mem_parts ht u hu) (hcache.trans hbefore.kept) hpart

/-- From one identity without a cached schema to another that it encloses. -/
def Uncached (G : TypeGraph ρ) (policy : RequiredPolicy) (cache : SchemaCache) (X Y : String) : Prop :=
  cached? policy X cache = none ∧ G.Encloses X Y

/-- What is cut at a circle lies on a circle of identities that were not cached, if this holds of what was
marked before. -/
theorem Fires.circle (hf : G.Faithful) {cache : SchemaCache} {t : TypeRef ρ} {session : Session ρ}
    {cut : Cut} {X : String} (h : Fires G.env policy t session cut X) (hcut : cut = .circle)
    (ht : t ∈ G.refs) (hcache : Extends cache session.cache)
    (hmarked : ∀ Y ∈ session.context.visited,
      Relation.TransGen (Uncached G policy cache) Y t.identity) :
    Relation.TransGen (Uncached G policy cache) X X := by
  induction h with
  | here _ hcut' =>
      rw [hcut] at hcut'
      exact hmarked _ (cut?_eq_circle_iff.1 hcut')
  | @inside t u session cut X before after hnone hopen hparts _ ih =>
      rcases returns_around hf policy ht hparts (enterRef G.env t session) with ⟨hu, hbefore, -⟩
      have hedge : Uncached G policy cache t.identity u.identity :=
        ⟨hcache.not_cached hnone, t, ht, rfl, u, hu, rfl⟩
      refine ih hcut (TypeGraph.mem_of_mem_parts ht u hu) (hcache.trans hbefore.kept) ?_
      -- the marks inside are those outside and the new one
      intro Y hY
      have hnew : (t.load G.env).identity ∉ session.context.visited := by
        rw [hf t ht]
        exact (cut?_eq_none_iff.1 hopen).1
      have hvisited : (enterRef G.env t session).context.visited =
          (t.load G.env).identity :: session.context.visited := visited_enter hnew
      rw [hbefore.continues.visited, hvisited, hf t ht] at hY
      rcases List.mem_cons.1 hY with rfl | hY
      · exact .single hedge
      · exact (hmarked Y hY).tail hedge

/-- What lies on a circle of identities that were not cached is never cached. -/
theorem not_cached_of_circle (hc : G.Consistent) {cache last : SchemaCache}
    (hlast : Grows G policy cache last) {X : String}
    (h : Relation.TransGen (Uncached G policy cache) X X) : cached? policy X last = none := by
  -- each identity of the circle encloses the next one
  have hS : ∀ Y ∈ {Y | Relation.TransGen (Uncached G policy cache) Y X},
      ∃ Z ∈ {Y | Relation.TransGen (Uncached G policy cache) Y X}, G.Encloses Y Z := by
    intro Y hY
    rcases Relation.TransGen.head'_iff.1 hY with ⟨Z, hYZ, hZX⟩
    rcases Relation.reflTransGen_iff_eq_or_transGen.1 hZX with rfl | hZX
    · exact ⟨X, h, hYZ.2⟩
    · exact ⟨Z, hZX, hYZ.2⟩
  refine hlast.avoids hc hS ?_ X h
  intro Y hY
  rcases Relation.TransGen.head'_iff.1 hY with ⟨Z, hYZ, -⟩
  exact hYZ.1

/-! ## The same call over the last cache -/

/-- A session with the context of another one, over the last cache. -/
structure Over (last : SchemaCache) (session again : Session ρ) : Prop where
  context : again.context = session.context
  cache : again.cache = last

/-- A call over the last cache goes along into an expansion. -/
theorem Over.enterRef {last : SchemaCache} {session again : Session ρ} (h : Over last session again)
    (env : Environment ρ) (t : TypeRef ρ) : Over last (enterRef env t session) (enterRef env t again) :=
  ⟨congrArg (Context.enter · (t.load env)) h.context, h.cache⟩

/-- Both sessions note the loads for a key. -/
theorem Over.noteKey {last : SchemaCache} {session again : Session ρ} (h : Over last session again)
    (env : Environment ρ) (shape : Shape (TypeRef ρ)) :
    Over last (noteKey env shape session) (noteKey env shape again) :=
  ⟨h.context, h.cache⟩

/-- An expansion that is not kept leaves the cache as it is. -/
theorem Over.finish {last : SchemaCache} {session again : Session ρ} (h : Over last session again)
    {outer : Context} (d : Descriptor (TypeRef ρ)) (s : Schema)
    (hhits : session.context.guardHits ≠ outer.guardHits) :
    Over last (finish policy d outer s session) (finish policy d outer s again) := by
  refine ⟨congrArg (Context.leave · d outer.modulePath) h.context, ?_⟩
  rw [← h.context] at hhits
  rw [finish_cache_of_ne s hhits, h.cache]

/-- Over the last cache a call gives what it gave before, and leaves the cache as it is. -/
def Repeats (env : Environment ρ) (policy : RequiredPolicy) (last : SchemaCache) (t : TypeRef ρ)
    (session : Session ρ) : Prop :=
  ∀ again, Over last session again →
    (compileRef env policy t again).1 = (compileRef env policy t session).1 ∧
      Over last (compileRef env policy t session).2 (compileRef env policy t again).2

/-- Calls that repeat one after the other repeat together. -/
theorem askAll_again (hf : G.Faithful) {last : SchemaCache} {ts : List (TypeRef ρ)}
    (hts : ∀ t ∈ ts, t ∈ G.refs) {session again : Session ρ} (hover : Over last session again)
    (hlast : Extends (askAll (compileRef G.env policy) ts session).2.cache last)
    (hfires : ∀ cut X, FiresAmong G.env policy ts session cut X → cached? policy X last = none)
    (hcalls : ∀ t ∈ ts, ∀ inside, Returns policy session inside →
      Extends (compileRef G.env policy t inside).2.cache last →
      (∀ cut X, Fires G.env policy t inside cut X → cached? policy X last = none) →
      Repeats G.env policy last t inside) :
    (askAll (compileRef G.env policy) ts again).1 = (askAll (compileRef G.env policy) ts session).1 ∧
      Over last (askAll (compileRef G.env policy) ts session).2
        (askAll (compileRef G.env policy) ts again).2 := by
  induction ts generalizing session again with
  | nil => exact ⟨rfl, hover⟩
  | cons t ts ih =>
      -- Both runs ask the same parts; after the first one the second session still stands over the last
      -- cache.
      obtain ⟨ht, hrest⟩ := List.forall_mem_cons.1 hts
      obtain ⟨hcall, hothers⟩ := List.forall_mem_cons.1 hcalls
      have hfirst := compileRef_returns hf policy ht session
      have hthen := askAll_returns hf policy hrest (compileRef G.env policy t session).2
      have hfires' : ∀ cut X, Fires G.env policy t session cut X → cached? policy X last = none := by
        intro cut X h
        exact hfires cut X (firesAmong_cons.2 (Or.inl h))
      have hfires'' : ∀ cut X, FiresAmong G.env policy ts (compileRef G.env policy t session).2 cut X →
          cached? policy X last = none := by
        intro cut X h
        exact hfires cut X (firesAmong_cons.2 (Or.inr h))
      rw [askAll_cons] at hlast
      rw [askAll_cons, askAll_cons]
      have hkept := hthen.kept.trans hlast
      rcases hcall session (Returns.refl policy session) hkept hfires' again hover with ⟨hs, hover'⟩
      rcases ih hrest hover' hlast hfires''
        (fun u hu inside hinside => hothers u hu inside (hfirst.trans hinside)) with ⟨hanswers, hover''⟩
      exact ⟨by rw [hs, hanswers], hover''⟩

section

variable {env : Environment ρ} {last : SchemaCache} {t : TypeRef ρ} {session : Session ρ}

/-- What was cached is cached. -/
theorem repeats_of_cached (hlast : Extends session.cache last) {s : Schema}
    (hcached : cached? policy t.identity session.cache = some s) : Repeats env policy last t session := by
  intro again hover
  have hs := hlast.cached hcached
  rw [← hover.cache] at hs
  rw [compileRef_of_cached env hcached, compileRef_of_cached env hs]
  exact ⟨rfl, hover⟩

/-- A guard fires again for what is not cached by now. -/
theorem repeats_of_cut (hcached : cached? policy t.identity session.cache = none) {cut : Cut}
    (hcut : cut? t.identity session.context = some cut) (hnone : cached? policy t.identity last = none) :
    Repeats env policy last t session := by
  intro again hover
  have hcut' := hcut
  rw [← hover.cache] at hnone
  rw [← hover.context] at hcut'
  rw [compileRef_of_cut env hcached hcut, compileRef_of_cut env hnone hcut']
  exact ⟨rfl, congrArg Context.hit hover.context, hover.cache⟩

/-- Where no guard fired the schema is cached by now, and the context was left as it was. -/
theorem repeats_of_kept (hreturns : Returns policy session (compileRef env policy t session).2)
    (hhits : (compileRef env policy t session).2.context.guardHits = session.context.guardHits)
    (hkept : cached? policy t.identity last = some (compileRef env policy t session).1) :
    Repeats env policy last t session := by
  intro again hover
  rw [← hover.cache] at hkept
  rw [compileRef_of_cached env hkept]
  have hcontext := hreturns.continues.eq_of_guardHits hhits
  exact ⟨rfl, hover.context.trans hcontext.symm, hover.cache⟩

/-- An expansion in which a guard fired is opened again, and is not kept again. -/
theorem repeats_of_open (hcached : cached? policy t.identity session.cache = none)
    (hopen : cut? t.identity session.context = none) (hnone : cached? policy t.identity last = none)
    (hhits : (compileRef env policy t session).2.context.guardHits ≠ session.context.guardHits)
    (hasked : ∀ inside, Over last (enterRef env t session) inside →
      (askAll (compileRef env policy) (t.load env).shape.parts inside).1 =
          (askAll (compileRef env policy) (t.load env).shape.parts (enterRef env t session)).1 ∧
        Over last (askAll (compileRef env policy) (t.load env).shape.parts (enterRef env t session)).2
          (askAll (compileRef env policy) (t.load env).shape.parts inside).2) :
    Repeats env policy last t session := by
  intro again hover
  have hopen' := hopen
  rw [← hover.cache] at hnone
  rw [← hover.context] at hopen'
  rw [guardHits_of_open env hcached hopen] at hhits
  rcases hasked _ (hover.enterRef env t) with ⟨hanswers, hover'⟩
  -- The node was not kept the first time, so it is opened again, with the same parts and the same answers.
  have hcall := compileRef_of_open env hcached hopen
  have hcall' := compileRef_of_open env hnone hopen'
  dsimp only at hcall hcall'
  have hnoted := hover'.noteKey env (t.load env).shape
  rw [hcall, hcall', hanswers, hover.context]
  exact ⟨rfl, hnoted.finish _ _ hhits⟩

end

/-- If nothing for which a guard fires in a call is cached in the end, the same call over the last cache
repeats it. -/
theorem compileRef_again (hf : G.Faithful) (hc : G.Consistent) {cache last : SchemaCache}
    (hgrows : Grows G policy cache last) {t : TypeRef ρ} {session : Session ρ} (ht : t ∈ G.refs)
    (hcache : Extends cache session.cache)
    (hlast : Extends (compileRef G.env policy t session).2.cache last)
    (hfires : ∀ cut X, Fires G.env policy t session cut X → cached? policy X last = none) :
    Repeats G.env policy last t session := by
  induction t, session using compileRef_induction G.env with
  | hcall t session ih =>
      have hreturns := compileRef_returns hf policy ht session
      have hkeeps := compileRef_grows hf policy ht session
      cases hcached : cached? policy t.identity session.cache with
      | some s => exact repeats_of_cached (hreturns.kept.trans hlast) hcached
      | none =>
          cases hcut : cut? t.identity session.context with
          | some cut => exact repeats_of_cut hcached hcut (hfires cut t.identity (.here hcached hcut))
          | none =>
              cases hnow : cached? policy t.identity last with
              | some s =>
                  -- all that was cut off would be cached by now, so that nothing was
                  have hquiet : ∀ cut X, ¬ Fires G.env policy t session cut X := by
                    intro cut X h
                    rcases h.cached_of_cached hf hc hgrows ht hcache ⟨s, hnow⟩ with ⟨s', hs'⟩
                    rw [hfires cut X h] at hs'
                    cases hs'
                  have hhits := guardHits_of_not_fires G.env policy t session hquiet
                  exact repeats_of_kept hreturns hhits (hlast.cached (hkeeps.cached hhits))
              | none =>
                  -- a guard fired, or the schema would have been kept
                  have hhits : (compileRef G.env policy t session).2.context.guardHits ≠
                      session.context.guardHits := by
                    intro hsame
                    have hkept := hlast.cached (hkeeps.cached hsame)
                    rw [hnow] at hkept
                    cases hkept
                  have hparts := TypeGraph.mem_of_mem_parts ht
                  have hinside := (extends_of_open hf ht hcached hcut).trans hlast
                  have hfires' : ∀ cut X, FiresAmong G.env policy (t.load G.env).shape.parts
                      (enterRef G.env t session) cut X → cached? policy X last = none := by
                    intro cut X h
                    exact hfires cut X ((fires_iff_of_open hcached hcut).2 h)
                  refine repeats_of_open hcached hcut hnow hhits ?_
                  intro again hover
                  refine askAll_again hf hparts hover hinside hfires' ?_
                  intro u hu inside hin hext hnot
                  exact ih hcut u inside hin.continues.sameDepth (hparts u hu) (hcache.trans hin.kept) hext
                    hnot

/-! ## Fewer hits -/

/-- A session in which the guards look at the same, over all that was cached in the end. -/
structure Anew (last : SchemaCache) (session again : Session ρ) : Prop where
  visited : again.context.visited = session.context.visited
  depth : again.context.depth = session.context.depth
  maxDepth : again.context.maxDepth = session.context.maxDepth
  kept : Extends last again.cache

/-- In a call that is made again the guards are those of the first. -/
theorem Anew.cut?_eq {last : SchemaCache} {session again : Session ρ} (h : Anew last session again)
    (X : String) : cut? X again.context = cut? X session.context := by
  unfold cut?
  rw [h.visited, h.depth, h.maxDepth]

/-- A call that is made again goes along into an expansion. -/
theorem Anew.enterRef {last : SchemaCache} {session again : Session ρ} (h : Anew last session again)
    (env : Environment ρ) (t : TypeRef ρ) : Anew last (enterRef env t session) (enterRef env t again) :=
  ⟨congrArg (List.insert (t.load env).identity ·) h.visited, congrArg (· + 1) h.depth, h.maxDepth, h.kept⟩

/-- The two calls go along after each has returned. -/
theorem Anew.returns {last : SchemaCache} {session session' again again' : Session ρ}
    (h : Anew last session again) (h₁ : Returns policy session session')
    (h₂ : Returns policy again again') : Anew last session' again' :=
  ⟨(h₂.continues.visited.trans h.visited).trans h₁.continues.visited.symm,
    (h₂.continues.depth.trans h.depth).trans h₁.continues.depth.symm,
    (h₂.continues.maxDepth.trans h.maxDepth).trans h₁.continues.maxDepth.symm,
    h.kept.trans h₂.kept⟩

/-- The second time, guards fire no more often than the first time, and less often if something for which
one fired is cached by now. -/
structure FiresLess (policy : RequiredPolicy) (last : SchemaCache) (fires : Cut → String → Prop)
    (session after again after' : Session ρ) : Prop where
  le : after'.context.guardHits + session.context.guardHits ≤
    after.context.guardHits + again.context.guardHits
  lt : ∀ cut X, fires cut X → (∃ s, cached? policy X last = some s) →
    after'.context.guardHits + session.context.guardHits <
      after.context.guardHits + again.context.guardHits

/-- Calls one after the other fire guards no more often when they are made again, if each of them does not. -/
theorem askAll_firesLess (hf : G.Faithful) {last : SchemaCache} {ts : List (TypeRef ρ)}
    (hts : ∀ t ∈ ts, t ∈ G.refs) {session again : Session ρ} (hanew : Anew last session again)
    (hlast : Extends (askAll (compileRef G.env policy) ts session).2.cache last)
    (hcalls : ∀ t ∈ ts, ∀ inside inside', SameDepth session.context inside.context →
      Anew last inside inside' → Extends (compileRef G.env policy t inside).2.cache last →
      FiresLess policy last (Fires G.env policy t inside) inside
        (compileRef G.env policy t inside).2 inside' (compileRef G.env policy t inside').2) :
    FiresLess policy last (FiresAmong G.env policy ts session) session
      (askAll (compileRef G.env policy) ts session).2 again
      (askAll (compileRef G.env policy) ts again).2 := by
  induction ts generalizing session again with
  | nil =>
      refine ⟨Nat.le_of_eq (Nat.add_comm _ _), ?_⟩
      intro cut X h
      exact absurd h not_firesAmong_nil
  | cons t ts ih =>
      obtain ⟨ht, hrest⟩ := List.forall_mem_cons.1 hts
      obtain ⟨hcall, hothers⟩ := List.forall_mem_cons.1 hcalls
      have hreturns := compileRef_returns hf policy ht session
      have hreturns' := compileRef_returns hf policy ht again
      have hthen := askAll_returns hf policy hrest (compileRef G.env policy t session).2
      rw [askAll_cons] at hlast
      have hhead := hcall session again ⟨rfl, rfl⟩ hanew (hthen.kept.trans hlast)
      have htail := ih hrest (hanew.returns hreturns hreturns') hlast fun u hu inside inside' hinside =>
        hothers u hu inside inside' (hreturns.continues.sameDepth.trans hinside)
      rw [askAll_cons, askAll_cons]
      -- the hits of the first call and those of the others add up
      have hle := hhead.le
      have hle' := htail.le
      refine ⟨by dsimp only; omega, ?_⟩
      intro cut X hfires hX
      dsimp only
      rcases firesAmong_cons.1 hfires with h | h
      · have hlt := hhead.lt cut X h hX
        omega
      · have hlt := htail.lt cut X h hX
        omega

/-- A call that is made again fires guards no more often, and less often if one of those that were cut off is
cached. -/
theorem compileRef_firesLess (hf : G.Faithful) {last : SchemaCache} {t : TypeRef ρ}
    {session again : Session ρ} (ht : t ∈ G.refs) (hanew : Anew last session again)
    (hlast : Extends (compileRef G.env policy t session).2.cache last) :
    FiresLess policy last (Fires G.env policy t session) session
      (compileRef G.env policy t session).2 again (compileRef G.env policy t again).2 := by
  induction t, session using compileRef_induction G.env generalizing again with
  | hcall t session ih =>
      cases hcached : cached? policy t.identity session.cache with
      | some s =>
          have hreturns := compileRef_returns hf policy ht session
          have hs := hanew.kept.cached ((hreturns.kept.trans hlast).cached hcached)
          rw [compileRef_of_cached G.env hcached, compileRef_of_cached G.env hs]
          refine ⟨Nat.le_of_eq (Nat.add_comm _ _), ?_⟩
          intro cut X h
          have hnone := h.not_cached
          rw [hcached] at hnone
          cases hnone
      | none =>
          cases hcached' : cached? policy t.identity again.cache with
          | some s =>
              -- now nothing fires at all, where something may have fired before
              rw [compileRef_of_cached G.env hcached']
              have hle := (compileRef_returns hf policy ht session).continues.guardHits_le
              refine ⟨by dsimp only; omega, ?_⟩
              intro cut X h _
              have hlt := h.guardHits_lt hf ht
              dsimp only
              omega
          | none =>
              have hcut' := hanew.cut?_eq t.identity
              cases hcut : cut? t.identity session.context with
              | some cut =>
                  rw [hcut] at hcut'
                  rw [compileRef_of_cut G.env hcached hcut, compileRef_of_cut G.env hcached' hcut']
                  refine ⟨Nat.le_of_eq (by simp only [cutOff, Context.hit]; omega), ?_⟩
                  intro cut X h hX
                  -- the guard fires again, for what is not cached even now
                  rcases hX with ⟨s, hs⟩
                  rw [(h.eq_of_cut hcut).2] at hs
                  have hs' := hanew.kept.cached hs
                  rw [hcached'] at hs'
                  cases hs'
              | none =>
                  rw [hcut] at hcut'
                  have hparts := TypeGraph.mem_of_mem_parts ht
                  have hinside := (extends_of_open hf ht hcached hcut).trans hlast
                  have hasked := askAll_firesLess hf hparts (hanew.enterRef G.env t) hinside
                    fun u hu inside inside' hdepth hanew' hlast' =>
                      ih hcut u inside hdepth (hparts u hu) hanew' hlast'
                  constructor
                  · rw [guardHits_of_open G.env hcached hcut, guardHits_of_open G.env hcached' hcut']
                    exact hasked.le
                  · intro cut X h hX
                    rw [guardHits_of_open G.env hcached hcut, guardHits_of_open G.env hcached' hcut']
                    exact hasked.lt cut X ((fires_iff_of_open hcached hcut).1 h) hX

/-! ## A text at two depths -/

namespace TwoDepths

def text : TypeRef Unit := .ready (.scalar "string" .text)

def inner : TypeRef Unit := .ready (.record "B" [{ name := "t", type := text }] none)

/-- A record with a text inside and another one after it. -/
def outer : TypeRef Unit :=
  .ready (.record "A" [{ name := "x", type := inner }, { name := "y", type := text }] none)

def env : Environment Unit where
  load _ := default

theorem closed : ∀ t ∈ [outer, inner, text], ∀ u ∈ (t.load env).shape.mentions,
    u ∈ [outer, inner, text] :=
  TypeGraph.closed_of_places [[1, 2], [2], []] rfl

/-- The references of the records. -/
def graph : TypeGraph Unit := .ofList env [outer, inner, text] closed

theorem faithful : graph.Faithful := TypeGraph.faithful_ofList (by decide)

theorem consistent : graph.Consistent := TypeGraph.consistent_ofList (by decide)

end TwoDepths

/-! ## Calls from outside, made again -/

/-- **What a second call gives.** In a faithful and consistent graph, whatever is cached before, let a call
be made with a new context, and made again with a new context over the cache that it left. The second call
gives the same schema, context and cache if and only if nothing that was cut off at the depth limit in the
first is cached after it. In any case guards fire no more often the second time, and a call that is not
truncated gives the same schema again. -/
theorem run_again_iff (G : TypeGraph ρ) (hf : G.Faithful) (hc : G.Consistent) (policy : RequiredPolicy)
    (r : Request ρ) (hr : r.root ∈ G.refs) (maxDepth : Nat) (cache : SchemaCache) :
    let first := r.run G.env policy (fresh maxDepth cache)
    let second := r.run G.env policy (fresh maxDepth first.2.cache)
    ((second.1 = first.1 ∧ second.2.context = first.2.context ∧ second.2.cache = first.2.cache) ↔
      ∀ X, Fires G.env policy r.root (fresh maxDepth cache) .depth X →
        cached? policy X first.2.cache = none) ∧
    second.2.context.guardHits ≤ first.2.context.guardHits ∧
    (first.2.context.isTruncated = false → second.1 = first.1) := by
  simp -zeta only [Request.run_eq]
  intro first second
  have hgrows : Grows G policy cache first.2.cache :=
    (compileRef_grows hf policy hr (fresh maxDepth cache)).grows
  have hanew : Anew first.2.cache (fresh maxDepth cache) (fresh maxDepth first.2.cache) :=
    ⟨rfl, rfl, rfl, Extends.refl _⟩
  have hless := compileRef_firesLess hf hr hanew (Extends.refl first.2.cache)
  have hsame : (∀ X, Fires G.env policy r.root (fresh maxDepth cache) .depth X →
      cached? policy X first.2.cache = none) →
      second.1 = first.1 ∧ second.2.context = first.2.context ∧ second.2.cache = first.2.cache := by
    intro hdepth
    have hfires : ∀ cut X, Fires G.env policy r.root (fresh maxDepth cache) cut X →
        cached? policy X first.2.cache = none := by
      intro cut X h
      cases cut with
      | depth => exact hdepth X h
      | circle =>
          -- what is cut at a circle is never cached, for nothing was marked before
          refine not_cached_of_circle hc hgrows (h.circle hf rfl hr (Extends.refl _) ?_)
          intro Y hY
          cases hY
    rcases compileRef_again hf hc hgrows hr (Extends.refl _) (Extends.refl _) hfires
      (fresh maxDepth first.2.cache) ⟨rfl, rfl⟩ with ⟨hschema, hover⟩
    exact ⟨hschema, hover.context, hover.cache⟩
  refine ⟨⟨?_, hsame⟩, ?_, ?_⟩
  · rintro ⟨-, hcontext, -⟩ X h
    cases hX : cached? policy X first.2.cache with
    | none => rfl
    | some s =>
        have hlt : second.2.context.guardHits < first.2.context.guardHits :=
          hless.lt .depth X h ⟨s, hX⟩
        rw [hcontext] at hlt
        exact absurd hlt (Nat.lt_irrefl _)
  · exact hless.le
  · intro htruncated
    refine (hsame ?_).1
    intro X h
    have hlt := h.guardHits_lt hf hr
    have hpos : 0 < first.2.context.guardHits := Nat.lt_of_le_of_lt (Nat.zero_le _) hlt
    simp only [Context.isTruncated, decide_eq_false_iff_not] at htruncated
    exact absurd hpos htruncated

/-- With one level more nothing of the records is cut off, and they are compiled alike again. -/
theorem run_again_twoDepths :
    TwoDepths.graph.Faithful ∧ TwoDepths.graph.Consistent ∧
      (compileRef TwoDepths.env .tagged TwoDepths.outer (fresh 3 [])).2.context.isTruncated = false ∧
      (compileRef TwoDepths.env .tagged TwoDepths.outer (fresh 3
        (compileRef TwoDepths.env .tagged TwoDepths.outer (fresh 3 [])).2.cache)).1 =
          (compileRef TwoDepths.env .tagged TwoDepths.outer (fresh 3 [])).1 := by
  have hroot : TwoDepths.outer ∈ TwoDepths.graph.refs := List.mem_cons_self
  have h := run_again_iff TwoDepths.graph TwoDepths.faithful TwoDepths.consistent .tagged
    (.reference TwoDepths.outer) hroot 3 []
  exact ⟨TwoDepths.faithful, TwoDepths.consistent, rfl, h.2.2 rfl⟩

/-- With two levels the inner text is cut off, while the one after it is cached; so the second call gives
another schema. -/
theorem run_again_ne :
    TwoDepths.graph.Faithful ∧ TwoDepths.graph.Consistent ∧ TwoDepths.outer ∈ TwoDepths.graph.refs ∧
      (compileRef TwoDepths.env .tagged TwoDepths.outer (fresh 2
        (compileRef TwoDepths.env .tagged TwoDepths.outer (fresh 2 [])).2.cache)).1 ≠
          (compileRef TwoDepths.env .tagged TwoDepths.outer (fresh 2 [])).1 := by
  refine ⟨TwoDepths.faithful, TwoDepths.consistent, List.mem_cons_self, ?_⟩
  intro h
  have hsame := congrArg (Schema.same
    (compileRef TwoDepths.env .tagged TwoDepths.outer (fresh 2 [])).1) h
  revert hsame
  decide +kernel

end Compile

end PayloadSchema
