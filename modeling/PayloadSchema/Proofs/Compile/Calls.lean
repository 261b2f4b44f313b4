import PayloadSchema.Proofs.Compile.Parts

/-!
# Calls

What one call does, in three equations, one for each way in which it can go: the schema is cached, a guard
fires, or the descriptor is loaded and expanded. Later proofs follow these three ways and do not look into
the guards again.

The levels of `compileRefWithin` are no part of this. Any number of them that covers what the depth limit
leaves gives the same (`compileRefWithin_eq_of_le`), so the equations are stated without them, and the
induction over a call is one over the levels that are left (`compileRef_induction`).

* `compileRef_of_cached`, `compileRef_of_cut`, `compileRef_of_open` — the three ways;
* `compileRef_depth` — a call leaves the depth as it was, whatever is loaded.
-/

namespace PayloadSchema

namespace Compile

variable {ρ : Type}

/-! ## Guards -/

/-- The guards. -/
inductive Cut where
  /-- The identity is being expanded already. -/
  | circle
  /-- The depth limit is reached. -/
  | depth
deriving DecidableEq, Repr

/-- What stands for an identity where a guard fires. -/
def Cut.placeholder (identity : String) : Cut → Schema
  | circle => .circular identity
  | depth => .depthReached

/-- The guard that fires for an identity that is not cached. -/
def cut? (identity : String) (c : Context) : Option Cut :=
  if identity ∈ c.visited then some .circle
  else if c.maxDepth ≤ c.depth then some .depth
  else none

/-- The session after a guard fired. -/
def cutOff (session : Session ρ) : Session ρ := { session with context := session.context.hit }

/-- The cached schema of an identity. -/
def cached? (policy : RequiredPolicy) (identity : String) (cache : SchemaCache) : Option Schema :=
  Dictionary.find? cache (cacheKey policy identity)

/-- No guard fires for an identity that is not being expanded, below the depth limit. -/
theorem cut?_eq_none_iff {identity : String} {c : Context} :
    cut? identity c = none ↔ identity ∉ c.visited ∧ c.depth < c.maxDepth := by
  unfold cut?
  by_cases hvisited : identity ∈ c.visited
  · simp [hvisited]
  · by_cases hdepth : c.maxDepth ≤ c.depth
    · simp [hvisited, hdepth]
    · simp [hvisited, hdepth, Nat.lt_of_not_le hdepth]

theorem cut?_eq_circle_iff {identity : String} {c : Context} :
    cut? identity c = some .circle ↔ identity ∈ c.visited := by
  unfold cut?
  by_cases hvisited : identity ∈ c.visited
  · simp [hvisited]
  · by_cases hdepth : c.maxDepth ≤ c.depth <;> simp [hvisited, hdepth]

/-- What is cached is answered before the guards are looked at. -/
theorem guard?_of_cached {policy : RequiredPolicy} {identity : String} {session : Session ρ} {s : Schema}
    (h : cached? policy identity session.cache = some s) :
    guard? policy identity session = some (s, session) := by
  unfold cached? at h
  simp only [guard?, h]

/-- What is not cached is cut off by the guard that fires, if one does. -/
theorem guard?_of_not_cached {policy : RequiredPolicy} {identity : String} {session : Session ρ}
    (h : cached? policy identity session.cache = none) :
    guard? policy identity session =
      (cut? identity session.context).map fun cut => (cut.placeholder identity, cutOff session) := by
  unfold cached? at h
  by_cases hvisited : identity ∈ session.context.visited
  · simp only [guard?, h, cut?, List.contains_iff_mem, hvisited, if_true]
    rfl
  · by_cases hdepth : session.context.maxDepth ≤ session.context.depth
    · simp only [guard?, h, cut?, List.contains_iff_mem, hvisited, hdepth, if_true, if_false]
      rfl
    · simp [guard?, h, cut?, hvisited, hdepth]

/-! ## Calls within so many levels -/

/-- The first way, on any level: the cached schema, and nothing changes. -/
theorem compileRefWithin_of_cached (env : Environment ρ) {policy : RequiredPolicy} (n : Nat)
    {t : TypeRef ρ} {session : Session ρ} {s : Schema}
    (h : cached? policy t.identity session.cache = some s) :
    compileRefWithin env policy n t session = (s, session) := by
  cases n with
  | zero => rw [compileRefWithin, guard?_of_cached h, Option.getD_some]
  | succ n => rw [compileRefWithin, guard?_of_cached h]

/-- The second way, on any level: the placeholder of the guard, which is counted. -/
theorem compileRefWithin_of_cut (env : Environment ρ) {policy : RequiredPolicy} (n : Nat)
    {t : TypeRef ρ} {session : Session ρ} {cut : Cut}
    (h : cached? policy t.identity session.cache = none)
    (hcut : cut? t.identity session.context = some cut) :
    compileRefWithin env policy n t session = (cut.placeholder t.identity, cutOff session) := by
  cases n with
  | zero => rw [compileRefWithin, guard?_of_not_cached h, hcut, Option.map_some, Option.getD_some]
  | succ n => rw [compileRefWithin, guard?_of_not_cached h, hcut, Option.map_some]

/-- The third way, where a level is left: the parts are asked for with one level fewer, and the schema is
built of the answers. -/
theorem compileRefWithin_of_open (env : Environment ρ) {policy : RequiredPolicy} (n : Nat)
    {t : TypeRef ρ} {session : Session ρ}
    (h : cached? policy t.identity session.cache = none)
    (hcut : cut? t.identity session.context = none) :
    compileRefWithin env policy (n + 1) t session =
      let asked := askAll (compileRefWithin env policy n) (t.load env).shape.parts (enterRef env t session)
      let s := build env policy (t.load env) asked.1
      (s, finish policy (t.load env) session.context s (noteKey env (t.load env).shape asked.2)) := by
  rw [compileRefWithin, guard?_of_not_cached h, hcut, Option.map_none]
  exact expand_eq env policy _ t session

/-! ## The depth, and the levels it leaves -/

/-- Two contexts that count the open expansions alike. -/
structure SameDepth (c c' : Context) : Prop where
  depth : c'.depth = c.depth
  maxDepth : c'.maxDepth = c.maxDepth

theorem SameDepth.trans {c c' c'' : Context} (h : SameDepth c c') (h' : SameDepth c' c'') :
    SameDepth c c'' :=
  ⟨h'.depth.trans h.depth, h'.maxDepth.trans h.maxDepth⟩

/-- What is counted on the way into an expansion is taken back on the way out. -/
theorem SameDepth.leave {τ : Type} {c c' : Context} {d : Descriptor τ} (h : SameDepth (c.enter d) c')
    (modulePath : Option String) : SameDepth c (c'.leave d modulePath) := by
  constructor
  · show c'.depth - 1 = c.depth
    rw [h.depth]
    rfl
  · exact h.maxDepth

/-- A call leaves the depth as it was, whatever is loaded and however many levels there are. -/
theorem compileRefWithin_depth (env : Environment ρ) (policy : RequiredPolicy) (n : Nat)
    (t : TypeRef ρ) (session : Session ρ) :
    SameDepth session.context (compileRefWithin env policy n t session).2.context := by
  induction n generalizing t session with
  | zero =>
      cases hcached : cached? policy t.identity session.cache with
      | some s => rw [compileRefWithin_of_cached env 0 hcached]; exact ⟨rfl, rfl⟩
      | none =>
          -- with no level left nothing is opened, whether or not a guard fires
          rw [compileRefWithin, guard?_of_not_cached hcached]
          cases cut? t.identity session.context <;> exact ⟨rfl, rfl⟩
  | succ n ih =>
      cases hcached : cached? policy t.identity session.cache with
      | some s => rw [compileRefWithin_of_cached env _ hcached]; exact ⟨rfl, rfl⟩
      | none =>
          cases hcut : cut? t.identity session.context with
          | some cut => rw [compileRefWithin_of_cut env _ hcached hcut]; exact ⟨rfl, rfl⟩
          | none =>
              rw [compileRefWithin_of_open env n hcached hcut]
              have hasked := askAll_preserves
                (P := fun s => SameDepth (session.context.enter (t.load env)) s.context)
                (compileRefWithin env policy n) (t.load env).shape.parts
                (fun u _ s hs => hs.trans (ih u s)) (enterRef env t session) ⟨rfl, rfl⟩
              exact hasked.leave _

/-- Where an expansion is opened there are levels left. -/
theorem levels_pos_of_open {identity : String} {session : Session ρ}
    (h : cut? identity session.context = none) : 0 < levels session := by
  have hdepth := (cut?_eq_none_iff.1 h).2
  unfold levels
  omega

/-- Inside an expansion one level fewer is left. -/
theorem levels_of_enter {τ : Type} {session inside : Session ρ} {d : Descriptor τ}
    (h : SameDepth (session.context.enter d) inside.context) : levels inside = levels session - 1 := by
  unfold levels
  rw [h.depth, h.maxDepth]
  show session.context.maxDepth - (session.context.depth + 1) = _
  omega

/-- Answers that agree wherever the depth is the same are the same. -/
theorem askAll_congr (inner inner' : Inner ρ) {c : Context} (ts : List (TypeRef ρ))
    (hdepth : ∀ t session, SameDepth session.context (inner t session).2.context)
    (hsame : ∀ t session, SameDepth c session.context → inner' t session = inner t session)
    (session : Session ρ) (h : SameDepth c session.context) :
    askAll inner' ts session = askAll inner ts session := by
  induction ts generalizing session with
  | nil => rfl
  | cons t ts ih =>
      rw [askAll_cons, askAll_cons, hsame t session h, ih _ (h.trans (hdepth t session))]

/-- Any two numbers of levels that cover what the depth limit leaves give the same. -/
theorem compileRefWithin_eq_of_levels_le (env : Environment ρ) (policy : RequiredPolicy) (n m : Nat)
    (t : TypeRef ρ) (session : Session ρ) (hn : levels session ≤ n) (hm : levels session ≤ m) :
    compileRefWithin env policy m t session = compileRefWithin env policy n t session := by
  induction n generalizing m t session with
  | zero =>
      cases hcached : cached? policy t.identity session.cache with
      | some s => rw [compileRefWithin_of_cached env _ hcached, compileRefWithin_of_cached env _ hcached]
      | none =>
          cases hcut : cut? t.identity session.context with
          | none => exact absurd (levels_pos_of_open hcut) (by omega)
          | some cut =>
              rw [compileRefWithin_of_cut env _ hcached hcut, compileRefWithin_of_cut env _ hcached hcut]
  | succ n ih =>
      cases hcached : cached? policy t.identity session.cache with
      | some s => rw [compileRefWithin_of_cached env _ hcached, compileRefWithin_of_cached env _ hcached]
      | none =>
          cases hcut : cut? t.identity session.context with
          | some cut =>
              rw [compileRefWithin_of_cut env _ hcached hcut, compileRefWithin_of_cut env _ hcached hcut]
          | none =>
              -- both numbers have a level for the expansion, and cover what is left inside without it
              have hpos := levels_pos_of_open hcut
              obtain ⟨m, rfl⟩ : ∃ k, m = k + 1 := ⟨m - 1, by omega⟩
              have hasked := askAll_congr (compileRefWithin env policy n)
                (compileRefWithin env policy m) (t.load env).shape.parts
                (compileRefWithin_depth env policy n)
                (fun u s hs => ih m u s (by rw [levels_of_enter hs]; omega)
                  (by rw [levels_of_enter hs]; omega))
                (enterRef env t session) ⟨rfl, rfl⟩
              rw [compileRefWithin_of_open env n hcached hcut,
                compileRefWithin_of_open env m hcached hcut, hasked]

/-- More levels than the depth limit leaves change nothing: a guard answers before they run out. -/
theorem compileRefWithin_eq_of_le (env : Environment ρ) (policy : RequiredPolicy) {more : Nat}
    (t : TypeRef ρ) {session : Session ρ} (h : levels session ≤ more) :
    compileRefWithin env policy more t session = compileRef env policy t session :=
  compileRefWithin_eq_of_levels_le env policy _ _ t session (Nat.le_refl _) h

/-! ## Calls -/

section

variable (env : Environment ρ) {policy : RequiredPolicy} {t : TypeRef ρ} {session : Session ρ}

/-- What is cached is answered, and nothing changes. -/
theorem compileRef_of_cached {s : Schema} (h : cached? policy t.identity session.cache = some s) :
    compileRef env policy t session = (s, session) :=
  compileRefWithin_of_cached env _ h

/-- Where a guard fires its placeholder is answered, and the firing is counted. -/
theorem compileRef_of_cut {cut : Cut} (h : cached? policy t.identity session.cache = none)
    (hcut : cut? t.identity session.context = some cut) :
    compileRef env policy t session = (cut.placeholder t.identity, cutOff session) :=
  compileRefWithin_of_cut env _ h hcut

/-- The recursion of a call, in which no number of levels is left. -/
theorem compileRef_of_open (h : cached? policy t.identity session.cache = none)
    (hcut : cut? t.identity session.context = none) :
    compileRef env policy t session =
      let asked := askAll (compileRef env policy) (t.load env).shape.parts (enterRef env t session)
      let s := build env policy (t.load env) asked.1
      (s, finish policy (t.load env) session.context s (noteKey env (t.load env).shape asked.2)) := by
  -- the calls inside are made with one level fewer, which covers what is left there
  have hpos := levels_pos_of_open hcut
  have hasked := askAll_congr (compileRefWithin env policy (levels session - 1))
    (compileRef env policy) (t.load env).shape.parts (compileRefWithin_depth env policy _)
    (fun u s hs => (compileRefWithin_eq_of_le env policy u (Nat.le_of_eq (levels_of_enter hs))).symm)
    (enterRef env t session) ⟨rfl, rfl⟩
  rw [hasked, ← compileRefWithin_of_open env (levels session - 1) h hcut, Nat.sub_add_cancel hpos]
  rfl

end

/-- A call leaves the depth as it was, whatever is loaded. -/
theorem compileRef_depth (env : Environment ρ) (policy : RequiredPolicy) (t : TypeRef ρ)
    (session : Session ρ) :
    SameDepth session.context (compileRef env policy t session).2.context :=
  compileRefWithin_depth env policy _ t session

/-- Induction over a call: what holds of the calls inside an expansion holds of the expansion. -/
theorem compileRef_induction (env : Environment ρ) {P : TypeRef ρ → Session ρ → Prop}
    (hcall : ∀ t session,
      (cut? t.identity session.context = none → ∀ u inside,
        SameDepth (session.context.enter (t.load env)) inside.context → P u inside) → P t session)
    (t : TypeRef ρ) (session : Session ρ) : P t session := by
  -- Every call made inside stands one level deeper, so the levels still left decrease.
  generalize hn : levels session = n
  induction n generalizing t session with
  | zero =>
      apply hcall
      intro hcut
      exact absurd (levels_pos_of_open hcut) (by omega)
  | succ n ih =>
      apply hcall
      intro _ u inside hinside
      exact ih u inside (by rw [levels_of_enter hinside]; omega)

/-! ## Calls from outside -/

/-- A call from outside: for a descriptor or for a reference. -/
inductive Request (ρ : Type) where
  | descriptor (d : Descriptor (TypeRef ρ))
  | reference (t : TypeRef ρ)

/-- What a call from outside asks for. -/
def Request.root : Request ρ → TypeRef ρ
  | descriptor d => .ready d
  | reference t => t

/-- The schema that a call from outside gives. -/
def Request.run (env : Environment ρ) (policy : RequiredPolicy) :
    Request ρ → Session ρ → Schema × Session ρ
  | descriptor d => compile env policy d
  | reference t => compileRef env policy t

/-- A call from outside is a call for its root. -/
theorem Request.run_eq (env : Environment ρ) (policy : RequiredPolicy) (r : Request ρ)
    (session : Session ρ) : r.run env policy session = compileRef env policy r.root session := by
  cases r <;> rfl

/-- A session with a new context. -/
def fresh (maxDepth : Nat) (cache : SchemaCache) : Session ρ := { cache, context := { maxDepth } }

end Compile

end PayloadSchema
