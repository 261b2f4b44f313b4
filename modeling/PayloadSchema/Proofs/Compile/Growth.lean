import Mathlib.Data.List.Forall2
import PayloadSchema.Proofs.Compile.Discipline

/-!
# How a cache grows

A call keeps the schema of a reference only after the schemas of all its parts are cached, and makes it of
them. So a cache grows entry by entry, each made of entries that are there already (`Grows`), whatever was
truncated in between. Two things follow by induction over the growth. What was built from nothing holds
complete expansions only. And no identity is ever cached from which a chain of parts goes on for ever, since
no first one of the chain could be.

* `compileRef_grows` — a call lets the cache grow, and what it returns without a guard firing is cached;
* `Grows.expansion` — the entries of a cache grown from nothing are complete expansions;
* `Grows.avoids` — what encloses one of its own kind is not cached;
* `cache_sound` — the same for any sequence of calls.
-/

namespace PayloadSchema

namespace Compile

variable {ρ : Type}

/-! ## Complete expansions -/

/-- The schema of a descriptor by the rules of compilation, where the schemas of its references are given:
nothing is cached, no guard fires, and no depth is counted. -/
def plain (env : Environment ρ) (policy : RequiredPolicy) (d : Descriptor (TypeRef ρ))
    (answer : TypeRef ρ → Schema) : Schema :=
  describe (expandShape env policy (fun t session => (answer t, session)) d.shape { cache := [] }).1
    d.description

/-- The rules of compilation build the schema of the answers for the parts. -/
theorem plain_eq (env : Environment ρ) (policy : RequiredPolicy) (d : Descriptor (TypeRef ρ))
    (answer : TypeRef ρ → Schema) :
    plain env policy d answer = build env policy d (d.shape.parts.map answer) := by
  unfold plain build
  rw [expandShape_eq, askAll_pure]

/-- A schema is the complete expansion of a reference: it is compiled from the complete expansions of the
parts. -/
inductive Complete (env : Environment ρ) (policy : RequiredPolicy) : TypeRef ρ → Schema → Prop where
  | of_parts (t : TypeRef ρ) (answer : TypeRef ρ → Schema)
      (hparts : ∀ u ∈ (t.load env).shape.parts, Complete env policy u (answer u)) :
      Complete env policy t (plain env policy (t.load env) answer)

/-- The complete expansion of a reference, if it goes no deeper than so many levels. -/
def completeWithin (env : Environment ρ) (policy : RequiredPolicy) : Nat → TypeRef ρ → Option Schema
  | 0, _ => none
  | levels + 1, t =>
    ((t.load env).shape.parts.mapM (completeWithin env policy levels)).map (build env policy (t.load env))

/-- Schemas that can only be those that are found within so many levels are those that are found. -/
theorem eq_of_mapM_completeWithin {env : Environment ρ} {policy : RequiredPolicy} {levels : Nat}
    {ts : List (TypeRef ρ)} {answers found : List Schema}
    (h : List.Forall₂ (fun t s => ∀ s', completeWithin env policy levels t = some s' → s = s') ts answers)
    (hfound : ts.mapM (completeWithin env policy levels) = some found) : answers = found := by
  induction h generalizing found with
  | nil =>
      cases hfound
      rfl
  | cons hs _ ih =>
      rw [List.mapM_cons] at hfound
      obtain ⟨s', hs', hfound⟩ := Option.bind_eq_some_iff.1 hfound
      obtain ⟨rest, hrest, heq⟩ := Option.bind_eq_some_iff.1 hfound
      cases heq
      rw [hs s' hs', ih hrest]

/-- There is no other complete expansion than the one that is found. -/
theorem Complete.eq_of_completeWithin {env : Environment ρ} {policy : RequiredPolicy} {t : TypeRef ρ}
    {s : Schema} (h : Complete env policy t s) {levels : Nat} {s' : Schema}
    (hs' : completeWithin env policy levels t = some s') : s = s' := by
  induction h generalizing levels s' with
  | of_parts t answer _ ih =>
      cases levels with
      | zero => cases hs'
      | succ levels =>
          obtain ⟨answers, hanswers, rfl⟩ := Option.map_eq_some_iff.1 hs'
          -- Level by level both builders ask the same parts, in the same order.
          have hsame : (t.load env).shape.parts.map answer = answers := by
            refine eq_of_mapM_completeWithin ?_ hanswers
            rw [List.forall₂_map_right_iff, List.forall₂_same]
            intro u hu a ha
            exact ih u hu ha
          rw [plain_eq, hsame]

end Compile

open Compile

namespace TypeGraph

variable {ρ : Type} {G : TypeGraph ρ} {policy : RequiredPolicy}

/-- A schema is the complete expansion of an identity: it is that of every reference with the identity, of
which there is one. -/
def Expansion (G : TypeGraph ρ) (policy : RequiredPolicy) (X : String) (s : Schema) : Prop :=
  (∃ t ∈ G.refs, t.identity = X) ∧ ∀ t ∈ G.refs, t.identity = X → Complete G.env policy t s

/-- What depends on identities alone is the same over references with the same identities. -/
theorem map_eq_of_identities {α : Type} {ts us : List (TypeRef ρ)} (f g : TypeRef ρ → α)
    (hids : ts.map TypeRef.identity = us.map TypeRef.identity)
    (h : ∀ t ∈ ts, ∀ u ∈ us, t.identity = u.identity → f t = g u) : ts.map f = us.map g := by
  induction ts generalizing us with
  | nil =>
      rw [List.map_nil, eq_comm, List.map_eq_nil_iff] at hids
      rw [hids]
      rfl
  | cons t ts ih =>
      -- The identities are listed in one order, so the second list splits where the first does.
      rw [List.map_cons, eq_comm, List.map_eq_cons_iff] at hids
      rcases hids with ⟨u, rest, rfl, hu, hrest⟩
      have hhead : f t = g u := h t List.mem_cons_self u List.mem_cons_self hu.symm
      have htail : ts.map f = rest.map g := ih hrest.symm fun t' ht' u' hu' =>
        h t' (List.mem_cons_of_mem t ht') u' (List.mem_cons_of_mem u hu')
      rw [List.map_cons, List.map_cons, hhead, htail]

/-- References with one identity have one complete expansion at most. -/
theorem Consistent.complete_unique (hG : G.Consistent) {t u : TypeRef ρ} {s s' : Schema}
    (h : Complete G.env policy t s) (ht : t ∈ G.refs) (hu : u ∈ G.refs)
    (hid : t.identity = u.identity) (h' : Complete G.env policy u s') : s = s' := by
  induction h generalizing u s' with
  | of_parts t answer hparts ih =>
      cases h' with
      | of_parts _ answer' hparts' =>
          have hanswers : (t.load G.env).shape.parts.map answer =
              (u.load G.env).shape.parts.map answer' := by
            refine map_eq_of_identities answer answer' (hG.parts_eq ht hu hid) ?_
            intro v hv w hw hvw
            exact ih v hv (mem_of_mem_parts ht v hv) (mem_of_mem_parts hu w hw) hvw (hparts' w hw)
          rw [plain_eq, plain_eq, hG.build_eq policy ht hu hid, hanswers]

/-- An identity has one complete expansion at most. -/
theorem Expansion.unique (hG : G.Consistent) {X : String} {s s' : Schema} (h : G.Expansion policy X s)
    (h' : G.Expansion policy X s') : s = s' := by
  rcases h with ⟨⟨t, ht, hX⟩, hcomplete⟩
  exact hG.complete_unique (hcomplete t ht hX) ht ht rfl (h'.2 t ht hX)

/-! ## Circles have no complete expansion -/

/-- From where a circle can be reached, it can be reached through a part. -/
theorem ReachesCircle.next {X : String} (h : G.ReachesCircle X) :
    ∃ Y, G.ReachesCircle Y ∧ G.Encloses X Y := by
  rcases h with ⟨Z, hreach, hcircle⟩
  rcases Relation.ReflTransGen.cases_head hreach with rfl | ⟨Y, hXY, hYZ⟩
  · rcases Relation.TransGen.head'_iff.1 hcircle with ⟨Y, hXY, hYX⟩
    exact ⟨Y, ⟨X, hYX, hcircle⟩, hXY⟩
  · exact ⟨Y, ⟨Z, hYZ, hcircle⟩, hXY⟩

/-- A complete expansion is finite, so that it leads into no circle. -/
theorem Consistent.not_reachesCircle (hG : G.Consistent) {t : TypeRef ρ} {s : Schema}
    (h : Complete G.env policy t s) (ht : t ∈ G.refs) : ¬ G.ReachesCircle t.identity := by
  induction h with
  | of_parts t answer hparts ih =>
      intro hcircle
      rcases hcircle.next with ⟨Y, hnext, hencloses⟩
      rcases hG.exists_part hencloses ht rfl with ⟨u, hu, rfl⟩
      exact ih u hu (mem_of_mem_parts ht u hu) hnext

/-- An identity from which a circle can be reached has no complete expansion. -/
theorem Expansion.not_reachesCircle (hG : G.Consistent) {X : String} {s : Schema}
    (h : G.Expansion policy X s) : ¬ G.ReachesCircle X := by
  rcases h with ⟨⟨t, ht, rfl⟩, hcomplete⟩
  exact hG.not_reachesCircle (hcomplete t ht rfl) ht

end TypeGraph

namespace Compile

variable {ρ : Type} {G : TypeGraph ρ} {policy : RequiredPolicy}

/-! ## Growth -/

/-- A cache has grown from another one: entry by entry, each for an identity without one, made of the
entries of the parts. -/
inductive Grows (G : TypeGraph ρ) (policy : RequiredPolicy) (cache : SchemaCache) :
    SchemaCache → Prop where
  | refl : Grows G policy cache cache
  | keep {cache' : SchemaCache} {t : TypeRef ρ} (answer : String → Schema)
      (h : Grows G policy cache cache') (ht : t ∈ G.refs)
      (hnew : cached? policy t.identity cache' = none)
      (hparts : ∀ u ∈ (t.load G.env).shape.parts,
        cached? policy u.identity cache' = some (answer u.identity)) :
      Grows G policy cache
        (keep policy t.identity
          (build G.env policy (t.load G.env)
            ((t.load G.env).shape.parts.map fun u => answer u.identity)) cache')

/-- A cache may grow on from one that has grown. -/
theorem Grows.trans {a b c : SchemaCache} (h : Grows G policy a b) (h' : Grows G policy b c) :
    Grows G policy a c := by
  induction h' with
  | refl => exact h
  | keep answer _ ht hnew hparts ih => exact .keep answer ih ht hnew hparts

/-- The cached schema of an identity that has one. -/
def entry (policy : RequiredPolicy) (cache : SchemaCache) (X : String) : Schema :=
  (cached? policy X cache).getD {}

/-- Answers that are all cached are read off the cache. -/
theorem eq_entries_of_cached {cache : SchemaCache} {ts : List (TypeRef ρ)} {answers : List Schema}
    (h : List.Forall₂ (fun t s => cached? policy t.identity cache = some s) ts answers) :
    answers = ts.map (fun t => entry policy cache t.identity) ∧
      ∀ t ∈ ts, cached? policy t.identity cache = some (entry policy cache t.identity) := by
  induction h with
  | nil => exact ⟨rfl, fun _ ht => by cases ht⟩
  | @cons t s ts answers hs _ ih =>
      -- An entry of the cache is read back by `entry`, whatever its default.
      have hentry : entry policy cache t.identity = s := by
        unfold entry
        rw [hs, Option.getD_some]
      refine ⟨by rw [List.map_cons, hentry, ← ih.1], ?_⟩
      intro u hu
      rcases List.mem_cons.1 hu with rfl | hu
      · rw [hentry, hs]
      · exact ih.2 u hu

/-- A call lets the cache grow, and what it returns without a guard firing is cached. -/
structure Keeps (G : TypeGraph ρ) (policy : RequiredPolicy) (t : TypeRef ρ) (session : Session ρ) :
    Prop where
  grows : Grows G policy session.cache (compileRef G.env policy t session).2.cache
  cached : (compileRef G.env policy t session).2.context.guardHits = session.context.guardHits →
    cached? policy t.identity (compileRef G.env policy t session).2.cache =
      some (compileRef G.env policy t session).1

/-- So do calls one after the other: answers without a guard firing are all cached when the last of them is
given. -/
structure KeepsAll (G : TypeGraph ρ) (policy : RequiredPolicy) (ts : List (TypeRef ρ))
    (session : Session ρ) : Prop where
  grows : Grows G policy session.cache (askAll (compileRef G.env policy) ts session).2.cache
  cached :
    (askAll (compileRef G.env policy) ts session).2.context.guardHits = session.context.guardHits →
      List.Forall₂
        (fun t s =>
          cached? policy t.identity (askAll (compileRef G.env policy) ts session).2.cache = some s)
        ts (askAll (compileRef G.env policy) ts session).1

/-- Calls one after the other let the cache grow if each of them does. -/
theorem askAll_grows (hG : G.Faithful) {ts : List (TypeRef ρ)} (hts : ∀ t ∈ ts, t ∈ G.refs)
    (session : Session ρ)
    (h : ∀ t ∈ ts, ∀ inside, SameDepth session.context inside.context → Keeps G policy t inside) :
    KeepsAll G policy ts session := by
  induction ts generalizing session with
  | nil => exact ⟨.refl, fun _ => .nil⟩
  | cons t ts ih =>
      obtain ⟨ht, hrest⟩ := List.forall_mem_cons.1 hts
      have hreturns := compileRef_returns hG policy ht session
      have hreturns' := askAll_returns hG policy hrest (compileRef G.env policy t session).2
      have hfirst := h t List.mem_cons_self session ⟨rfl, rfl⟩
      -- The first call ends as deep as it began, so the others are asked at the depth of the hypothesis.
      have hothers : ∀ u ∈ ts, ∀ inside,
          SameDepth (compileRef G.env policy t session).2.context inside.context → Keeps G policy u inside := by
        intro u hu inside hinside
        have hdepth := hreturns.continues.sameDepth.trans hinside
        exact h u (List.mem_cons_of_mem t hu) inside hdepth
      have hthen := ih hrest (compileRef G.env policy t session).2 hothers
      constructor
      · rw [askAll_cons]
        exact hfirst.grows.trans hthen.grows
      · rw [askAll_cons]
        intro hhits
        dsimp only at hhits ⊢
        -- the count never falls, so that no guard fired for the first nor for the others
        have hle := hreturns.continues.guardHits_le
        have hle' := hreturns'.continues.guardHits_le
        have hcached := hfirst.cached (by omega)
        have hcached' := hthen.cached (by omega)
        exact .cons (hreturns'.kept.cached hcached) hcached'

/-- An expansion is kept if no guard fired inside, when every part is cached and the schema is made of what
is cached. -/
theorem keeps_of_open (hG : G.Faithful) {t : TypeRef ρ} (ht : t ∈ G.refs) {session : Session ρ}
    (hcached : cached? policy t.identity session.cache = none)
    (hopen : cut? t.identity session.context = none)
    (h : KeepsAll G policy (t.load G.env).shape.parts (enterRef G.env t session)) :
    Keeps G policy t session := by
  have hnew := not_cached_inside hG policy ht hcached
  have hcall := compileRef_of_open G.env hcached hopen
  rcases h with ⟨hgrows, hanswers⟩
  generalize askAll (compileRef G.env policy) (t.load G.env).shape.parts (enterRef G.env t session) =
    asked at *
  dsimp only at hcall
  -- With no placeholder inside, the node is kept and its parts are entries of the cache; with one, nothing
  -- is kept.
  by_cases hhits : asked.2.context.guardHits = session.context.guardHits
  · rcases eq_entries_of_cached (hanswers hhits) with ⟨hentries, hall⟩
    have hcache : (compileRef G.env policy t session).2.cache =
        keep policy t.identity (build G.env policy (t.load G.env) asked.1) asked.2.cache := by
      rw [hcall, ← hG t ht]
      exact finish_cache_of_eq _ hhits
    constructor
    · rw [hcache, hentries]
      exact .keep _ hgrows ht hnew hall
    · intro _
      rw [hcache, hcall]
      exact cached?_keep_self _ _ _ _
  · have hcache : (compileRef G.env policy t session).2.cache = asked.2.cache := by
      rw [hcall]
      exact finish_cache_of_ne _ hhits
    constructor
    · rw [hcache]
      exact hgrows
    · intro hsame
      rw [hcall] at hsame
      exact absurd hsame hhits

/-- **Growth.** A call lets the cache grow by entries that are made of entries, and caches what it returns
unless a guard fired. -/
theorem compileRef_grows (hG : G.Faithful) (policy : RequiredPolicy) {t : TypeRef ρ} (ht : t ∈ G.refs)
    (session : Session ρ) : Keeps G policy t session := by
  induction t, session using compileRef_induction G.env with
  | hcall t session ih =>
      -- The three ways a call can go: answered from the cache, cut off, or opened.
      cases hcached : cached? policy t.identity session.cache with
      | some s =>
          constructor <;> rw [compileRef_of_cached G.env hcached]
          · exact .refl
          · intro _
            exact hcached
      | none =>
          cases hcut : cut? t.identity session.context with
          | some cut =>
              constructor <;> rw [compileRef_of_cut G.env hcached hcut]
              · exact .refl
              · intro hhits
                exact absurd hhits (Nat.succ_ne_self _)
          | none =>
              have hparts := TypeGraph.mem_of_mem_parts ht
              refine keeps_of_open hG ht hcached hcut (askAll_grows hG hparts _ ?_)
              intro u hu inside hinside
              exact ih hcut u inside hinside (hparts u hu)

/-! ## What a grown cache holds -/

/-- An entry of a grown cache that was not there before is that of a reference of which all parts are
cached. -/
theorem Grows.parts_cached (hG : G.Consistent) {cache cache' : SchemaCache}
    (h : Grows G policy cache cache') {t : TypeRef ρ} (ht : t ∈ G.refs) {s : Schema}
    (hs : cached? policy t.identity cache' = some s) (hnone : cached? policy t.identity cache = none) :
    ∀ u ∈ (t.load G.env).shape.parts, ∃ s', cached? policy u.identity cache' = some s' := by
  induction h with
  | refl =>
      rw [hnone] at hs
      cases hs
  | @keep cache' t' answer h ht' hnew hparts ih =>
      intro u hu
      have hkept := extends_keep (build G.env policy (t'.load G.env)
        ((t'.load G.env).shape.parts.map fun u => answer u.identity)) hnew
      by_cases hid : t.identity = t'.identity
      · -- the entry is the last one, whose parts were all cached before
        have hmem : u.identity ∈ (t.load G.env).shape.parts.map TypeRef.identity :=
          List.mem_map_of_mem hu
        rw [hG.parts_eq ht ht' hid] at hmem
        rcases List.mem_map.1 hmem with ⟨u', hu', huid⟩
        have hcached := hparts u' hu'
        rw [huid] at hcached
        exact ⟨_, hkept.cached hcached⟩
      · rw [cached?_keep_of_ne _ _ hid] at hs
        rcases ih hs u hu with ⟨s', hs'⟩
        exact ⟨s', hkept.cached hs'⟩

/-- The entries of a cache grown from nothing are complete expansions. -/
theorem Grows.expansion (hG : G.Consistent) {cache : SchemaCache} (h : Grows G policy [] cache)
    {key : String} {s : Schema} (hs : Dictionary.find? cache key = some s) :
    ∃ X, key = cacheKey policy X ∧ G.Expansion policy X s := by
  induction h generalizing key s with
  | refl => cases hs
  | @keep cache t answer h ht hnew hparts ih =>
      by_cases hkey : key = cacheKey policy t.identity
      · subst hkey
        have hself := cached?_keep_self policy t.identity (build G.env policy (t.load G.env)
          ((t.load G.env).shape.parts.map fun u => answer u.identity)) cache
        rw [← Option.some.inj (hself.symm.trans hs)]
        refine ⟨t.identity, rfl, ⟨t, ht, rfl⟩, ?_⟩
        intro t' ht' hid
        -- another reference with the identity has parts with the same identities, hence entries
        have hanswers : (t.load G.env).shape.parts.map (fun u => answer u.identity) =
            (t'.load G.env).shape.parts.map (fun u => answer u.identity) :=
          TypeGraph.map_eq_of_identities _ _ (hG.parts_eq ht ht' hid.symm)
            fun _ _ _ _ hids => congrArg answer hids
        rw [hG.build_eq policy ht ht' hid.symm, hanswers, ← plain_eq]
        refine .of_parts t' _ ?_
        intro u' hu'
        have hmem : u'.identity ∈ (t'.load G.env).shape.parts.map TypeRef.identity :=
          List.mem_map_of_mem hu'
        rw [hG.parts_eq ht' ht hid] at hmem
        rcases List.mem_map.1 hmem with ⟨u, hu, huid⟩
        rcases ih (hparts u hu) with ⟨X, hX, hexpansion⟩
        have hidentity : u'.identity = X := huid.symm.trans (cacheKey_injective policy hX)
        rw [← huid]
        exact hexpansion.2 u' (TypeGraph.mem_of_mem_parts ht' u' hu') hidentity
      · unfold Compile.keep at hs
        rw [Dictionary.find?_insert_of_ne _ _ hkey] at hs
        exact ih hs

/-- Nothing is cached for identities each of which encloses one of them: of their entries none could be the
first. -/
theorem Grows.avoids (hG : G.Consistent) {S : Set String} (hS : ∀ X ∈ S, ∃ Y ∈ S, G.Encloses X Y)
    {cache cache' : SchemaCache} (h : Grows G policy cache cache')
    (hfree : ∀ X ∈ S, cached? policy X cache = none) :
    ∀ X ∈ S, cached? policy X cache' = none := by
  induction h with
  | refl => exact hfree
  | @keep cache' t answer h ht hnew hparts ih =>
      intro X hX
      -- an entry for one of them would have been made of the entry of another one
      have hne : X ≠ t.identity := by
        intro hid
        rcases hS X hX with ⟨Y, hY, hencloses⟩
        rcases hG.exists_part hencloses ht hid.symm with ⟨u, hu, rfl⟩
        have hcached := hparts u hu
        rw [ih u.identity hY] at hcached
        cases hcached
      rw [cached?_keep_of_ne _ _ hne]
      exact ih X hX

/-! ## Calls over one cache -/

/-- Calls one after the other over one cache, each with a new context and a limit of its own: the schemas
with the contexts afterwards, and the cache. -/
def runAll (env : Environment ρ) (policy : RequiredPolicy) :
    List (Request ρ × Nat) → SchemaCache → List (Schema × Context) × SchemaCache
  | [], cache => ([], cache)
  | (r, maxDepth) :: calls, cache =>
    let result := r.run env policy (fresh maxDepth cache)
    let results := runAll env policy calls result.2.cache
    ((result.1, result.2.context) :: results.1, results.2)

/-- A call with a new context that is not truncated returns what is cached when it ends. -/
theorem cached_of_not_truncated (hG : G.Faithful) {r : Request ρ} (hr : r.root ∈ G.refs)
    {maxDepth : Nat} {cache : SchemaCache}
    (h : (r.run G.env policy (fresh maxDepth cache)).2.context.isTruncated = false) :
    cached? policy r.root.identity (r.run G.env policy (fresh maxDepth cache)).2.cache =
      some (r.run G.env policy (fresh maxDepth cache)).1 := by
  rw [Request.run_eq] at h ⊢
  refine (compileRef_grows hG policy hr _).cached ?_
  simp only [Context.isTruncated, decide_eq_false_iff_not] at h
  exact Nat.eq_zero_of_not_pos h

/-- Calls from outside let the cache grow. -/
theorem runAll_grows (hG : G.Faithful) (policy : RequiredPolicy) (calls : List (Request ρ × Nat))
    (hcalls : ∀ call ∈ calls, call.1.root ∈ G.refs) (cache : SchemaCache) :
    Grows G policy cache (runAll G.env policy calls cache).2 := by
  induction calls generalizing cache with
  | nil => exact .refl
  | cons call calls ih =>
      obtain ⟨hroot, hrest⟩ := List.forall_mem_cons.1 hcalls
      have hfirst := (compileRef_grows hG policy hroot (fresh call.2 cache)).grows
      rw [← Request.run_eq] at hfirst
      exact hfirst.trans (ih hrest _)

/-- Over a cache that was built from nothing each call that is not truncated returns a complete expansion. -/
theorem runAll_complete (hf : G.Faithful) (hc : G.Consistent) (policy : RequiredPolicy)
    (calls : List (Request ρ × Nat)) (hcalls : ∀ call ∈ calls, call.1.root ∈ G.refs)
    {cache : SchemaCache} (hcache : Grows G policy [] cache) :
    List.Forall₂
      (fun call result => result.2.isTruncated = false →
        G.Expansion policy call.1.root.identity result.1)
      calls (runAll G.env policy calls cache).1 := by
  induction calls generalizing cache with
  | nil => exact .nil
  | cons call calls ih =>
      obtain ⟨hroot, hrest⟩ := List.forall_mem_cons.1 hcalls
      have hfirst := runAll_grows hf policy [call] (List.forall_mem_singleton.2 hroot) cache
      have hgrows := hcache.trans hfirst
      -- what is not truncated is an entry of the cache after the call
      refine .cons ?_ (ih hrest hgrows)
      intro htruncated
      rcases hgrows.expansion hc (cached_of_not_truncated hf hroot htruncated)
        with ⟨X, hX, hexpansion⟩
      rwa [cacheKey_injective policy hX]

/-- **Soundness of the cache.** In a faithful and consistent graph, after any sequence of calls of one
policy over a cache that was empty, each with a limit of its own: every entry is the complete expansion of
its identity, every call that was not truncated returned the complete expansion of what it was for, and
nothing is cached for an identity from which a circle can be reached. No such identity has a complete
expansion, and no identity has two. -/
theorem cache_sound (G : TypeGraph ρ) (hf : G.Faithful) (hc : G.Consistent) (policy : RequiredPolicy)
    (calls : List (Request ρ × Nat)) (hcalls : ∀ call ∈ calls, call.1.root ∈ G.refs) :
    (∀ key s, Dictionary.find? (runAll G.env policy calls []).2 key = some s →
      ∃ X, key = cacheKey policy X ∧ G.Expansion policy X s) ∧
    List.Forall₂
      (fun call result => result.2.isTruncated = false →
        G.Expansion policy call.1.root.identity result.1)
      calls (runAll G.env policy calls []).1 ∧
    (∀ X, G.ReachesCircle X → cached? policy X (runAll G.env policy calls []).2 = none) ∧
    ∀ X s, G.Expansion policy X s →
      ¬ G.ReachesCircle X ∧ ∀ s', G.Expansion policy X s' → s' = s := by
  have hgrows := runAll_grows hf policy calls hcalls []
  refine ⟨?_, runAll_complete hf hc policy calls hcalls .refl, ?_, ?_⟩
  · intro key s hs
    exact hgrows.expansion hc hs
  · -- The identities that reach a circle are closed under one enclosed step, so no entry is ever made for
    -- them.
    have hS : ∀ X ∈ {X | G.ReachesCircle X}, ∃ Y ∈ {X | G.ReachesCircle X}, G.Encloses X Y := by
      intro X hX
      rcases TypeGraph.ReachesCircle.next hX with ⟨Y, hY, hencloses⟩
      exact ⟨Y, hY, hencloses⟩
    intro X hX
    exact hgrows.avoids hc hS (fun _ _ => rfl) X hX
  · intro X s hexpansion
    refine ⟨hexpansion.not_reachesCircle hc, ?_⟩
    intro s' h'
    exact h'.unique hc hexpansion

/-- Whatever is asked for, and how deep, a tree is not cached, and its label is cached as a text. -/
theorem cache_sound_tree :
    Tree.graph.Faithful ∧ Tree.graph.Consistent ∧
      (∀ call ∈ [(Request.reference Tree.self, 1), (.reference Tree.self, 3)],
        call.1.root ∈ Tree.graph.refs) ∧
      cached? .tagged "Tree" (runAll Tree.env .tagged
        [(.reference Tree.self, 1), (.reference Tree.self, 3)] []).2 = none ∧
      ∃ X, "string" = cacheKey .tagged X ∧ Tree.graph.Expansion .tagged X (ofScalar .text) := by
  have hcalls : ∀ call ∈ [(Request.reference Tree.self, 1), (.reference Tree.self, 3)],
      call.1.root ∈ Tree.graph.refs := by
    intro call hcall
    rcases List.mem_pair.1 hcall with rfl | rfl <;> exact List.mem_cons_self
  rcases cache_sound Tree.graph Tree.faithful Tree.consistent .tagged
    [(.reference Tree.self, 1), (.reference Tree.self, 3)] hcalls with ⟨hentries, -, havoids, -⟩
  exact ⟨Tree.faithful, Tree.consistent, hcalls, havoids "Tree" Tree.reachesCircle,
    hentries "string" (ofScalar .text) rfl⟩

end Compile

end PayloadSchema
