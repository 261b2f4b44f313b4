import Mathlib.Order.BooleanAlgebra.Basic
import PayloadSchema.Proofs.Compile.Repetition

/-!
# Larger depth limits

The depth limit is looked at by the guards alone. A call during which no guard fires opens each of its
expansions below the limit, hence below any larger one, and the guards let the same references through. So the
two calls go alike, step by step, with sessions that differ in the limit only.

* `compileRef_guardHits_le` — guards that have fired are not forgotten, whatever is loaded;
* `compileRef_withLimit` — a call during which no guard fires, under a larger limit;
* `isTruncated_antitone` — the same for a call from outside with a new context.
-/

namespace PayloadSchema

variable {ρ : Type}

/-- The session under another depth limit. -/
def Session.withLimit (session : Session ρ) (maxDepth : Nat) : Session ρ :=
  { session with context := { session.context with maxDepth } }

namespace Compile

/-! ## The count of hits -/

/-- The count of hits never falls, whatever is loaded. -/
theorem compileRef_guardHits_le (env : Environment ρ) (policy : RequiredPolicy) (t : TypeRef ρ)
    (session : Session ρ) :
    session.context.guardHits ≤ (compileRef env policy t session).2.context.guardHits := by
  induction t, session using compileRef_induction env with
  | hcall t session ih =>
      cases hcached : cached? policy t.identity session.cache with
      | some s => rw [compileRef_of_cached env hcached]
      | none =>
          cases hcut : cut? t.identity session.context with
          | some cut =>
              rw [compileRef_of_cut env hcached hcut]
              exact Nat.le_succ _
          | none =>
              rw [guardHits_of_open env hcached hcut]
              -- The calls below stand at one depth, which is what the induction hypothesis asks for.
              have hasked := askAll_preserves
                (P := fun s => SameDepth (session.context.enter (t.load env)) s.context ∧
                  session.context.guardHits ≤ s.context.guardHits)
                (compileRef env policy) (t.load env).shape.parts
                (fun u _ inside hinside => ⟨hinside.1.trans (compileRef_depth env policy u inside),
                  Nat.le_trans hinside.2 (ih hcut u inside hinside.1)⟩)
                (enterRef env t session) ⟨⟨rfl, rfl⟩, Nat.le_refl _⟩
              exact hasked.2

/-- The count of hits never falls while answers are asked for. -/
theorem askAll_guardHits_le (env : Environment ρ) (policy : RequiredPolicy) (ts : List (TypeRef ρ))
    (session : Session ρ) :
    session.context.guardHits ≤ (askAll (compileRef env policy) ts session).2.context.guardHits :=
  askAll_preserves (P := fun s => session.context.guardHits ≤ s.context.guardHits)
    (compileRef env policy) ts
    (fun t _ inside hinside => Nat.le_trans hinside (compileRef_guardHits_le env policy t inside)) session
    (Nat.le_refl _)

/-! ## The same call under a larger limit -/

/-- An expansion is entered in the same way under any limit. -/
theorem enterRef_withLimit (env : Environment ρ) (t : TypeRef ρ) (session : Session ρ) (limit : Nat) :
    enterRef env t (session.withLimit limit) = (enterRef env t session).withLimit limit :=
  rfl

/-- An expansion ends in the same way under any limit. -/
theorem finish_withLimit (policy : RequiredPolicy) (d : Descriptor (TypeRef ρ)) (session : Session ρ)
    (limit : Nat) (s : Schema) (inside : Session ρ) :
    finish policy d (session.withLimit limit).context s (inside.withLimit limit) =
      (finish policy d session.context s inside).withLimit limit :=
  rfl

/-- Where an expansion is opened, it is opened under a larger limit. -/
theorem cut?_withLimit {X : String} {session : Session ρ} {limit : Nat}
    (h : cut? X session.context = none) (hlimit : session.context.maxDepth ≤ limit) :
    cut? X (session.withLimit limit).context = none := by
  obtain ⟨hnew, hbelow⟩ := cut?_eq_none_iff.1 h
  exact cut?_eq_none_iff.2 ⟨hnew, Nat.lt_of_lt_of_le hbelow hlimit⟩

/-- Calls one after the other during which no guard fires, if this holds of each. -/
theorem askAll_withLimit (env : Environment ρ) (policy : RequiredPolicy) (limit : Nat)
    (ts : List (TypeRef ρ)) (session : Session ρ)
    (hcalls : ∀ t inside, SameDepth session.context inside.context →
      (compileRef env policy t inside).2.context.guardHits = inside.context.guardHits →
      compileRef env policy t (inside.withLimit limit) =
        ((compileRef env policy t inside).1, (compileRef env policy t inside).2.withLimit limit))
    (hhits : (askAll (compileRef env policy) ts session).2.context.guardHits = session.context.guardHits) :
    askAll (compileRef env policy) ts (session.withLimit limit) =
      ((askAll (compileRef env policy) ts session).1,
        (askAll (compileRef env policy) ts session).2.withLimit limit) := by
  induction ts generalizing session with
  | nil => rfl
  | cons t ts ih =>
      rw [askAll_cons] at hhits
      dsimp only at hhits
      -- no guard fires in the first call nor in the others, since the count never falls
      have hfirst := compileRef_guardHits_le env policy t session
      have hothers := askAll_guardHits_le env policy ts (compileRef env policy t session).2
      have hcall := hcalls t session ⟨rfl, rfl⟩ (by omega)
      have hrest := ih (compileRef env policy t session).2
        (fun u inside hinside => hcalls u inside ((compileRef_depth env policy t session).trans hinside))
        (by omega)
      rw [askAll_cons, askAll_cons, hcall, hrest]

/-- A call during which no guard fires gives the same under a larger limit, and leaves the same behind. -/
theorem compileRef_withLimit (env : Environment ρ) (policy : RequiredPolicy) {limit : Nat} (t : TypeRef ρ)
    (session : Session ρ) (hlimit : session.context.maxDepth ≤ limit)
    (hhits : (compileRef env policy t session).2.context.guardHits = session.context.guardHits) :
    compileRef env policy t (session.withLimit limit) =
      ((compileRef env policy t session).1, (compileRef env policy t session).2.withLimit limit) := by
  induction t, session using compileRef_induction env with
  | hcall t session ih =>
      cases hcached : cached? policy t.identity session.cache with
      | some s =>
          have hcached' : cached? policy t.identity (session.withLimit limit).cache = some s := hcached
          rw [compileRef_of_cached env hcached, compileRef_of_cached env hcached']
      | none =>
          have hcached' : cached? policy t.identity (session.withLimit limit).cache = none := hcached
          cases hcut : cut? t.identity session.context with
          | some cut =>
              -- A cut counts as a hit, which the hypothesis excludes.
              rw [compileRef_of_cut env hcached hcut] at hhits
              exact absurd hhits (Nat.succ_ne_self _)
          | none =>
              rw [guardHits_of_open env hcached hcut] at hhits
              -- The deeper limit is not met before the shallower one, and that one was never met.
              have hasked := askAll_withLimit env policy limit (t.load env).shape.parts (enterRef env t session)
                (fun u inside hinside => ih hcut u inside hinside (by rw [hinside.maxDepth]; exact hlimit))
                hhits
              have hcall := compileRef_of_open env hcached hcut
              have hcall' := compileRef_of_open env hcached' (cut?_withLimit hcut hlimit)
              dsimp only at hcall hcall'
              rw [hcall, hcall', enterRef_withLimit, hasked]
              exact congrArg (Prod.mk _) (finish_withLimit policy (t.load env) session limit _
                (noteKey env (t.load env).shape
                  (askAll (compileRef env policy) (t.load env).shape.parts (enterRef env t session)).2))

/-! ## Calls from outside -/

/-- **Larger limits do not hurt.** For any environment and policy, a call from outside with a new context: if it
is not truncated under a limit, it is not truncated under any larger one, where it returns the same schema and
leaves the same cache. So the larger the limit, the less is truncated. -/
theorem isTruncated_antitone (env : Environment ρ) (policy : RequiredPolicy) (r : Request ρ)
    (cache : SchemaCache) :
    (∀ m m', m ≤ m' → (r.run env policy (fresh m cache)).2.context.isTruncated = false →
      (r.run env policy (fresh m' cache)).2.context.isTruncated = false ∧
        (r.run env policy (fresh m' cache)).1 = (r.run env policy (fresh m cache)).1 ∧
        (r.run env policy (fresh m' cache)).2.cache = (r.run env policy (fresh m cache)).2.cache) ∧
    Antitone fun m => (r.run env policy (fresh m cache)).2.context.isTruncated := by
  simp only [Request.run_eq]
  -- From a fresh context no hits means not truncated, so the two runs are one up to their limits.
  have hraised : ∀ m m', m ≤ m' →
      (compileRef env policy r.root (fresh m cache)).2.context.isTruncated = false →
      compileRef env policy r.root (fresh m' cache) =
        ((compileRef env policy r.root (fresh m cache)).1,
          (compileRef env policy r.root (fresh m cache)).2.withLimit m') := by
    intro m m' hle htruncated
    refine compileRef_withLimit env policy r.root (fresh m cache) hle ?_
    simp only [Context.isTruncated, decide_eq_false_iff_not] at htruncated
    exact Nat.eq_zero_of_not_pos htruncated
  refine ⟨?_, ?_⟩
  · intro m m' hle htruncated
    rw [hraised m m' hle htruncated]
    exact ⟨htruncated, rfl, rfl⟩
  · intro m m' hle
    show (compileRef env policy r.root (fresh m' cache)).2.context.isTruncated ≤
      (compileRef env policy r.root (fresh m cache)).2.context.isTruncated
    cases htruncated : (compileRef env policy r.root (fresh m cache)).2.context.isTruncated with
    | true => exact Bool.le_true _
    | false =>
        rw [hraised m m' hle htruncated]
        exact le_of_eq htruncated

/-- Three levels are enough for a record with a record inside, and five give the same. -/
theorem isTruncated_antitone_twoDepths :
    (3 : Nat) ≤ 5 ∧
      (compileRef TwoDepths.env .tagged TwoDepths.outer (fresh 3 [])).2.context.isTruncated = false ∧
      (compileRef TwoDepths.env .tagged TwoDepths.outer (fresh 5 [])).2.context.isTruncated = false ∧
      (compileRef TwoDepths.env .tagged TwoDepths.outer (fresh 5 [])).1 =
        (compileRef TwoDepths.env .tagged TwoDepths.outer (fresh 3 [])).1 := by
  have henough :
      (compileRef TwoDepths.env .tagged TwoDepths.outer (fresh 3 [])).2.context.isTruncated = false := by
    decide +kernel
  obtain ⟨hraised, -⟩ := isTruncated_antitone TwoDepths.env .tagged (.reference TwoDepths.outer) []
  obtain ⟨huntruncated, hschema, -⟩ := hraised 3 5 (by decide) henough
  exact ⟨by decide, henough, huntruncated, hschema⟩

end Compile

end PayloadSchema
