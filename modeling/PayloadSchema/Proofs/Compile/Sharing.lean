import PayloadSchema.Proofs.Compile.Discipline

/-!
# Policies that share a cache

Compilers of both policies may share a cache. The keys of the policy that is not the plain one end in a
mark, so that as long as no identity ends in it, a cache is two caches in one. A call reads only the part of
its own policy, so that parts that are the same give the same (`compileRef_beside`); and it writes only
there, so that the other part stays as it is (`compileRef_apart`). By induction over the uses of the cache,
each policy gets what it would get from a cache of its own.

* `serve` — the replies to calls over one cache, which may be emptied in between;
* `serve_filter` — those of one policy are what its own calls get over a cache of their own.
-/

namespace PayloadSchema

/-! ## Marks -/

/-- An identity ends in the mark of the keys of the policy that is not the plain one. -/
def Marked (identity : String) : Prop := "@non_optional".toList <:+ identity.toList

instance (identity : String) : Decidable (Marked identity) := inferInstanceAs (Decidable (_ <:+ _))

/-- The keys of the policy that is not the plain one end in the mark. -/
theorem marked_cacheKey (identity : String) : Marked (cacheKey .nonOptional identity) := by
  unfold Marked cacheKey
  rw [String.toList_append]
  exact List.suffix_append _ _

/-- The keys of two policies are different where no identity is marked. -/
theorem cacheKey_ne {policy policy' : RequiredPolicy} (h : policy ≠ policy') {X Y : String}
    (hX : ¬ Marked X) (hY : ¬ Marked Y) : cacheKey policy X ≠ cacheKey policy' Y := by
  intro hkey
  -- One policy marks its keys and the other leaves identities as they are; an unmarked identity is never
  -- such a key.
  cases policy with
  | tagged =>
      cases policy' with
      | tagged => exact h rfl
      | nonOptional =>
          have hplain : X = cacheKey .nonOptional Y := hkey
          rw [hplain] at hX
          exact hX (marked_cacheKey Y)
  | nonOptional =>
      cases policy' with
      | tagged =>
          have hplain : cacheKey .nonOptional X = Y := hkey
          rw [← hplain] at hY
          exact hY (marked_cacheKey X)
      | nonOptional => exact h rfl

/-- No identity of a graph is marked, neither that of a reference nor that of what it loads. -/
structure TypeGraph.Unmarked {ρ : Type} (G : TypeGraph ρ) : Prop where
  reference : ∀ t ∈ G.refs, ¬ Marked t.identity
  loaded : ∀ t ∈ G.refs, ¬ Marked (t.load G.env).identity

namespace Compile

variable {ρ : Type}

/-! ## The part of a policy -/

/-- Two caches have the same entries for a policy under all identities that are not marked. -/
def SameEntries (policy : RequiredPolicy) (cache cache' : SchemaCache) : Prop :=
  ∀ X, ¬ Marked X → cached? policy X cache' = cached? policy X cache

section

variable {policy : RequiredPolicy} {cache cache' cache'' : SchemaCache}

theorem SameEntries.refl (policy : RequiredPolicy) (cache : SchemaCache) :
    SameEntries policy cache cache := fun _ _ => rfl

theorem SameEntries.trans (h : SameEntries policy cache cache') (h' : SameEntries policy cache' cache'') :
    SameEntries policy cache cache'' :=
  fun X hX => (h' X hX).trans (h X hX)

theorem SameEntries.symm (h : SameEntries policy cache cache') : SameEntries policy cache' cache :=
  fun X hX => (h X hX).symm

/-- What is kept in both caches is the same entry in both. -/
theorem SameEntries.keep (h : SameEntries policy cache cache') (Y : String) (s : Schema) :
    SameEntries policy (keep policy Y s cache) (keep policy Y s cache') := by
  intro X hX
  by_cases hself : X = Y
  · rw [hself, cached?_keep_self, cached?_keep_self]
  · rw [cached?_keep_of_ne s _ hself, cached?_keep_of_ne s _ hself]
    exact h X hX

/-- What is kept for one policy is no entry of another one. -/
theorem sameEntries_keep {other : RequiredPolicy} (hother : other ≠ policy) {Y : String} (hY : ¬ Marked Y)
    (s : Schema) (cache : SchemaCache) : SameEntries other cache (keep policy Y s cache) := by
  intro X hX
  exact Dictionary.find?_insert_of_ne _ _ (cacheKey_ne hother hX hY)

/-- What a call of one policy keeps is no entry of the other one. -/
theorem sameEntries_finish {other : RequiredPolicy} (hother : other ≠ policy) {d : Descriptor (TypeRef ρ)}
    (hd : ¬ Marked d.identity) (outer : Context) (s : Schema) (session : Session ρ) :
    SameEntries other session.cache (finish policy d outer s session).cache := by
  by_cases hhits : session.context.guardHits = outer.guardHits
  · rw [finish_cache_of_eq s hhits]
    exact sameEntries_keep hother hd s session.cache
  · rw [finish_cache_of_ne s hhits]
    exact .refl other session.cache

end

/-! ## Calls of one policy -/

/-- A session beside another one: the context is the same, and so are the entries for a policy. -/
structure Beside (policy : RequiredPolicy) (session own : Session ρ) : Prop where
  context : own.context = session.context
  entries : SameEntries policy session.cache own.cache

section

variable {G : TypeGraph ρ} {policy : RequiredPolicy}

/-- The loads for a key are noted on both sides. -/
theorem Beside.noteKey {session own : Session ρ} (h : Beside policy session own) (env : Environment ρ)
    (shape : Shape (TypeRef ρ)) : Beside policy (noteKey env shape session) (noteKey env shape own) :=
  ⟨h.context, h.entries⟩

/-- Both sides enter the expansion. -/
theorem Beside.enterRef {session own : Session ρ} (h : Beside policy session own) (env : Environment ρ)
    (t : TypeRef ρ) : Beside policy (enterRef env t session) (enterRef env t own) :=
  ⟨congrArg (Context.enter · (t.load env)) h.context, h.entries⟩

/-- Both sides keep the schema, or neither does. -/
theorem Beside.finish {session own : Session ρ} (h : Beside policy session own)
    (d : Descriptor (TypeRef ρ)) (outer : Context) (s : Schema) :
    Beside policy (finish policy d outer s session) (finish policy d outer s own) := by
  constructor
  · exact congrArg (Context.leave · d outer.modulePath) h.context
  · -- whether a guard fired inside is seen in the contexts, which are the same
    by_cases hhits : session.context.guardHits = outer.guardHits
    · have hhits' : own.context.guardHits = outer.guardHits := by rw [h.context, hhits]
      rw [finish_cache_of_eq s hhits, finish_cache_of_eq s hhits']
      exact h.entries.keep d.identity s
    · have hhits' : own.context.guardHits ≠ outer.guardHits := by rw [h.context]; exact hhits
      rw [finish_cache_of_ne s hhits, finish_cache_of_ne s hhits']
      exact h.entries

/-- A call gives the same beside a session, and leaves a session beside the one that it leaves there. -/
structure CallsBeside (G : TypeGraph ρ) (policy : RequiredPolicy) (t : TypeRef ρ)
    (session own : Session ρ) : Prop where
  schema : (compileRef G.env policy t own).1 = (compileRef G.env policy t session).1
  beside : Beside policy (compileRef G.env policy t session).2 (compileRef G.env policy t own).2

/-- So do calls one after the other. -/
theorem askAll_beside {ts : List (TypeRef ρ)} {session own : Session ρ} (h : Beside policy session own)
    (hcalls : ∀ t ∈ ts, ∀ inside own', SameDepth session.context inside.context →
      Beside policy inside own' → CallsBeside G policy t inside own') :
    (askAll (compileRef G.env policy) ts own).1 = (askAll (compileRef G.env policy) ts session).1 ∧
      Beside policy (askAll (compileRef G.env policy) ts session).2
        (askAll (compileRef G.env policy) ts own).2 := by
  induction ts generalizing session own with
  | nil => exact ⟨rfl, h⟩
  | cons t ts ih =>
      have hfirst := hcalls t List.mem_cons_self session own ⟨rfl, rfl⟩ h
      -- Both sessions go on from the first part, still beside each other and at the same depth.
      have hdepth := compileRef_depth G.env policy t session
      have hrest := ih hfirst.beside fun u hu inside own' hinside =>
        hcalls u (List.mem_cons_of_mem t hu) inside own' (hdepth.trans hinside)
      rw [askAll_cons, askAll_cons]
      constructor
      · rw [hfirst.schema, hrest.1]
      · exact hrest.2

/-- A call reads nothing of a cache but the entries of its policy. -/
theorem compileRef_beside (hG : G.Unmarked) {t : TypeRef ρ} (ht : t ∈ G.refs) {session own : Session ρ}
    (h : Beside policy session own) : CallsBeside G policy t session own := by
  induction t, session using compileRef_induction G.env generalizing own with
  | hcall t session ih =>
      have hentry := h.entries t.identity (hG.reference t ht)
      cases hcached : cached? policy t.identity session.cache with
      | some s =>
          rw [hcached] at hentry
          constructor <;> rw [compileRef_of_cached G.env hcached, compileRef_of_cached G.env hentry]
          exact h
      | none =>
          rw [hcached] at hentry
          cases hguard : cut? t.identity session.context with
          | some cut =>
              have hguard' : cut? t.identity own.context = some cut := by rw [h.context, hguard]
              constructor <;>
                rw [compileRef_of_cut G.env hcached hguard, compileRef_of_cut G.env hentry hguard']
              exact ⟨congrArg Context.hit h.context, h.entries⟩
          | none =>
              have hguard' : cut? t.identity own.context = none := by rw [h.context, hguard]
              obtain ⟨hanswers, hasked⟩ := askAll_beside (h.enterRef G.env t)
                fun u hu inside own' hinside hbeside =>
                  ih hguard u inside hinside (TypeGraph.mem_of_mem_parts ht u hu) hbeside
              constructor <;>
                rw [compileRef_of_open G.env hcached hguard, compileRef_of_open G.env hentry hguard']
              · exact congrArg (build G.env policy (t.load G.env)) hanswers
              · -- one schema is kept on both sides, or none
                dsimp only
                rw [hanswers, h.context]
                exact (hasked.noteKey G.env (t.load G.env).shape).finish (t.load G.env) session.context _

/-- A call writes nothing but entries of its policy. -/
theorem compileRef_apart (hG : G.Unmarked) {other : RequiredPolicy} (hother : other ≠ policy)
    {t : TypeRef ρ} (ht : t ∈ G.refs) (session : Session ρ) :
    SameEntries other session.cache (compileRef G.env policy t session).2.cache := by
  induction t, session using compileRef_induction G.env with
  | hcall t session ih =>
      cases hcached : cached? policy t.identity session.cache with
      | some s =>
          rw [compileRef_of_cached G.env hcached]
          exact .refl other session.cache
      | none =>
          cases hguard : cut? t.identity session.context with
          | some cut =>
              rw [compileRef_of_cut G.env hcached hguard]
              exact .refl other session.cache
          | none =>
              -- each part is asked for as deep as the first one, and leaves the entries alone
              have hasked := askAll_preserves
                (P := fun s => SameDepth (session.context.enter (t.load G.env)) s.context ∧
                  SameEntries other session.cache s.cache)
                (compileRef G.env policy) (t.load G.env).shape.parts
                (fun u hu inside hinside =>
                  ⟨hinside.1.trans (compileRef_depth G.env policy u inside),
                    hinside.2.trans (ih hguard u inside hinside.1 (TypeGraph.mem_of_mem_parts ht u hu))⟩)
                (enterRef G.env t session) ⟨⟨rfl, rfl⟩, .refl other session.cache⟩
              rw [compileRef_of_open G.env hcached hguard]
              exact hasked.2.trans (sameEntries_finish hother (hG.loaded t ht) _ _ _)

end

/-! ## Uses of a cache -/

/-- A use of a cache: a call from outside with a context of its own, or that the cache is emptied. -/
inductive Use (ρ : Type) where
  | call (env : Environment ρ) (policy : RequiredPolicy) (r : Request ρ) (context : Context)
  | clear

/-- A call is for a reference of a graph without marked identities. -/
def Use.Unmarked : Use ρ → Prop
  | call env _ r _ => ∃ G : TypeGraph ρ, G.env = env ∧ G.Unmarked ∧ r.root ∈ G.refs
  | clear => True

/-- Whether a use is one of the cache of a policy. Every cache is emptied. -/
def Use.concerns (policy : RequiredPolicy) : Use ρ → Bool
  | call _ policy' _ _ => policy' == policy
  | clear => true

/-- What a call of a policy gives: the schema, and the context that it leaves. -/
structure Reply where
  policy : RequiredPolicy
  schema : Schema
  context : Context

/-- The replies to the calls among uses of a cache, in order. -/
def serve : List (Use ρ) → SchemaCache → List Reply
  | [], _ => []
  | .call env policy r context :: uses, cache =>
    let result := r.run env policy { cache, context }
    { policy, schema := result.1, context := result.2.context } :: serve uses result.2.cache
  | .clear :: uses, _ => serve uses []

/-- The replies of a policy are those to its own uses over a cache with the same entries for it. -/
theorem serve_beside {uses : List (Use ρ)} (huses : ∀ use ∈ uses, use.Unmarked) {policy : RequiredPolicy}
    {cache own : SchemaCache} (h : SameEntries policy cache own) :
    (serve uses cache).filter (·.policy == policy) = serve (uses.filter (Use.concerns policy)) own := by
  induction uses generalizing cache own with
  | nil => rfl
  | cons use uses ih =>
      have hrest : ∀ use ∈ uses, use.Unmarked := fun u hu => huses u (List.mem_cons_of_mem use hu)
      cases use with
      | clear => exact ih hrest (.refl policy [])
      | call env policy' r context =>
          obtain ⟨G, rfl, hG, hroot⟩ : (Use.call env policy' r context).Unmarked :=
            huses _ List.mem_cons_self
          by_cases hsame : policy' = policy
          · -- a call of the policy: the reply is the same, and so are the entries afterwards
            subst hsame
            have hbeside : Beside policy' ({ cache, context } : Session ρ) { cache := own, context } :=
              ⟨rfl, h⟩
            obtain ⟨hschema, hafter⟩ := compileRef_beside hG hroot hbeside
            rw [← Request.run_eq, ← Request.run_eq] at hschema hafter
            have hconcerns : Use.concerns policy' (.call G.env policy' r context) = true :=
              beq_self_eq_true policy'
            rw [List.filter_cons_of_pos hconcerns, serve, serve, List.filter_cons_of_pos (by simp)]
            rw [ih hrest hafter.entries, hschema, hafter.context]
          · -- a call of the other policy: there is no reply, and the entries are left alone
            have hapart := compileRef_apart hG (Ne.symm hsame) hroot { cache, context }
            rw [← Request.run_eq] at hapart
            have hconcerns : Use.concerns policy (.call G.env policy' r context) = false := by
              simp [Use.concerns, hsame]
            rw [List.filter_cons_of_neg (by simp [hconcerns]), serve,
              List.filter_cons_of_neg (by simp [hsame])]
            exact ih hrest (hapart.symm.trans h)

/-- **Policies that share a cache.** Whatever calls of both policies are made over one cache, in any order,
each for a reference of a graph without marked identities and with a context of its own, and wherever the
cache is emptied: each policy gets the schemas and the contexts that it gets if only its own calls are made,
over a cache of its own, which is emptied at the same places. -/
theorem serve_filter (uses : List (Use ρ)) (huses : ∀ use ∈ uses, use.Unmarked) (cache : SchemaCache)
    (policy : RequiredPolicy) :
    (serve uses cache).filter (·.policy == policy) = serve (uses.filter (Use.concerns policy)) cache :=
  serve_beside huses (.refl policy cache)

/-- Under a marked identity a boolean would be answered with the text that was kept for the other policy. -/
example :
    let plain : TypeRef Unit := .ready (.scalar "A" .text)
    let marked : TypeRef Unit := .ready (.scalar "A@non_optional" .boolean)
    (serve [.call Tree.env .nonOptional (.reference plain) {},
      .call Tree.env .tagged (.reference marked) {}] []).map (·.schema.kind) =
        [some .string, some .string] := by
  decide +kernel

/-- The identities of a tree are not marked. -/
theorem unmarked_tree : Tree.graph.Unmarked := by
  have hreference : ∀ t ∈ Tree.graph.refs, ¬ Marked t.identity := by
    show ∀ t ∈ [Tree.self, Tree.text, Tree.subtrees], ¬ Marked t.identity
    decide +kernel
  constructor
  · exact hreference
  · intro t ht
    rw [Tree.faithful t ht]
    exact hreference t ht

/-- Both policies ask for a tree, one of them before and after the cache is emptied. -/
theorem serve_filter_tree :
    let tagged := Use.call Tree.env .tagged (.reference Tree.self) {}
    let nonOptional := Use.call Tree.env .nonOptional (.reference Tree.self) {}
    (∀ use ∈ [tagged, nonOptional, .clear, tagged], use.Unmarked) ∧
      (serve [tagged, nonOptional, .clear, tagged] []).filter (·.policy == .tagged) =
        serve [tagged, .clear, tagged] [] := by
  intro tagged nonOptional
  have huses : ∀ use ∈ [tagged, nonOptional, .clear, tagged], use.Unmarked := by
    intro use huse
    simp only [List.mem_cons, List.not_mem_nil, or_false] at huse
    have hcall : ∃ G : TypeGraph Unit, G.env = Tree.env ∧ G.Unmarked ∧ Tree.self ∈ G.refs :=
      ⟨Tree.graph, rfl, unmarked_tree, List.mem_cons_self⟩
    rcases huse with rfl | rfl | rfl | rfl
    · exact hcall
    · exact hcall
    · trivial
    · exact hcall
  exact ⟨huses, serve_filter [tagged, nonOptional, .clear, tagged] huses [] .tagged⟩

end Compile

end PayloadSchema
