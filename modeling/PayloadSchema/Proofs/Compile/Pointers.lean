import PayloadSchema.Proofs.Compile.Repetition

/-!
# Chains of pointers

A value behind a pointer is written as its target. So the schema of a descriptor is that of the one to which a
chain of pointers leads from it, but for the description (`Made.of_points`). The schemas in question are
those that untruncated calls give, which are made of complete expansions (`made_of_not_truncated`).

In a consistent graph a chain that ends leads to its end by one number of pointers only, whichever reference
it starts from (`EndsIn.length_unique`), so that no identity is met twice on the way.
-/

namespace PayloadSchema

open Compile

variable {ρ : Type}

/-! ## Chains -/

/-- A pointer, of whichever sort. -/
def Shape.isPointer {τ : Type} : Shape τ → Bool
  | .pointer _ _ => true
  | _ => false

theorem Shape.Rel.isPointer_eq {σ τ : Type} {Q : String → String → Prop} {R : σ → τ → Prop}
    {shape : Shape σ} {shape' : Shape τ} (h : shape.Rel Q R shape') :
    shape.isPointer = shape'.isPointer := by
  cases h <;> rfl

namespace Descriptor

/-- So many pointers lead from a descriptor to another one. -/
inductive Points (env : Environment ρ) : Nat → Descriptor (TypeRef ρ) → Descriptor (TypeRef ρ) → Prop where
  | refl (d : Descriptor (TypeRef ρ)) : Points env 0 d d
  | step {n : Nat} {d e : Descriptor (TypeRef ρ)} {target : TypeRef ρ} {optional : Bool}
      (hd : d.shape = .pointer target optional) (h : Points env n (target.load env) e) :
      Points env (n + 1) d e

/-- So many pointers lead from a descriptor to one that is no pointer. -/
structure EndsIn (env : Environment ρ) (n : Nat) (d e : Descriptor (TypeRef ρ)) : Prop where
  points : Points env n d e
  last : e.shape.isPointer = false

/-- No pointer leads from what is no pointer. -/
theorem EndsIn.of_zero {env : Environment ρ} {d e : Descriptor (TypeRef ρ)} (h : EndsIn env 0 d e) :
    e = d ∧ d.shape.isPointer = false := by
  obtain ⟨hpoints, hlast⟩ := h
  cases hpoints
  exact ⟨rfl, hlast⟩

/-- A chain of pointers begins with a pointer. -/
theorem EndsIn.of_succ {env : Environment ρ} {n : Nat} {d e : Descriptor (TypeRef ρ)}
    (h : EndsIn env (n + 1) d e) :
    ∃ target optional, d.shape = .pointer target optional ∧ EndsIn env n (target.load env) e := by
  obtain ⟨hpoints, hlast⟩ := h
  cases hpoints with
  | step hd hrest => exact ⟨_, _, hd, hrest, hlast⟩

end Descriptor

open Descriptor (Points EndsIn)

namespace TypeGraph

variable {G : TypeGraph ρ}

/-- A pointer of a graph leads to a reference of the graph. -/
theorem mem_of_pointer {t target : TypeRef ρ} {optional : Bool} (ht : t ∈ G.refs)
    (h : (t.load G.env).shape = .pointer target optional) : target ∈ G.refs :=
  mem_of_mem_parts ht target (by rw [h]; exact List.mem_singleton_self target)

/-- What pointers lead to asks for references of the graph only, if what they lead from does. -/
theorem parts_mem_of_points {n : Nat} {d e : Descriptor (TypeRef ρ)} (h : Points G.env n d e)
    (hd : ∀ u ∈ d.shape.parts, u ∈ G.refs) : ∀ u ∈ e.shape.parts, u ∈ G.refs := by
  induction h with
  | refl => exact hd
  | @step n d e target optional hshape _ ih =>
      have htarget : target ∈ G.refs := hd target (by rw [hshape]; exact List.mem_singleton_self target)
      exact ih (mem_of_mem_parts htarget)

/-- References with one identity are both pointers, or neither of them is. -/
theorem Consistent.isPointer_eq (hG : G.Consistent) {t u : TypeRef ρ} (ht : t ∈ G.refs) (hu : u ∈ G.refs)
    (hid : t.identity = u.identity) :
    (t.load G.env).shape.isPointer = (u.load G.env).shape.isPointer :=
  (hG.shape_rel ht hu hid).isPointer_eq

/-- From references with one identity a chain that ends has one length. -/
theorem Consistent.length_unique (hG : G.Consistent) {n m : Nat} {t u : TypeRef ρ}
    {e e' : Descriptor (TypeRef ρ)} (ht : t ∈ G.refs) (hu : u ∈ G.refs) (hid : t.identity = u.identity)
    (h : EndsIn G.env n (t.load G.env) e) (h' : EndsIn G.env m (u.load G.env) e') : n = m := by
  have hsame := hG.isPointer_eq ht hu hid
  induction n generalizing t u m with
  | zero =>
      cases m with
      | zero => rfl
      | succ m =>
          obtain ⟨target, optional, hpointer, -⟩ := h'.of_succ
          rw [h.of_zero.2, hpointer] at hsame
          cases hsame
  | succ n ih =>
      obtain ⟨target, optional, hpointer, hrest⟩ := h.of_succ
      cases m with
      | zero =>
          rw [h'.of_zero.2, hpointer] at hsame
          cases hsame
      | succ m =>
          obtain ⟨target', optional', hpointer', hrest'⟩ := h'.of_succ
          -- References of one identity point at targets of one identity, so both ways shrink together.
          have hshape := hG.shape_rel ht hu hid
          rw [hpointer, hpointer'] at hshape
          cases hshape with
          | pointer _ htarget =>
              have hmem := mem_of_pointer ht hpointer
              have hmem' := mem_of_pointer hu hpointer'
              rw [ih hmem hmem' htarget hrest hrest' (hG.isPointer_eq hmem hmem' htarget)]

end TypeGraph

namespace Compile

/-! ## What untruncated calls give -/

/-- A schema is made by the rule for a descriptor, of complete expansions of its parts. -/
def Made (env : Environment ρ) (policy : RequiredPolicy) (d : Descriptor (TypeRef ρ)) (s : Schema) : Prop :=
  ∃ answers, List.Forall₂ (Complete env policy) d.shape.parts answers ∧ s = build env policy d answers

/-- A complete expansion is made by the rule for its descriptor. -/
theorem Complete.made {env : Environment ρ} {policy : RequiredPolicy} {t : TypeRef ρ} {s : Schema}
    (h : Complete env policy t s) : Made env policy (t.load env) s := by
  cases h with
  | of_parts _ answer hparts =>
      refine ⟨(t.load env).shape.parts.map answer, ?_, plain_eq env policy _ answer⟩
      rw [List.forall₂_map_right_iff, List.forall₂_same]
      exact hparts

/-- The schema of what leads to a descriptor by pointers is one of this descriptor, but for the description. -/
theorem Made.of_points {env : Environment ρ} {policy : RequiredPolicy} {n : Nat}
    {d e : Descriptor (TypeRef ρ)} {s : Schema} (h : Made env policy d s) (hpoints : Points env n d e) :
    ∃ s' description, Made env policy e s' ∧ s = { s' with description } := by
  induction hpoints generalizing s with
  | refl => exact ⟨s, s.description, h, by cases s; rfl⟩
  | @step n d e target optional hd _ ih =>
      obtain ⟨answers, hanswers, rfl⟩ := h
      rw [hd] at hanswers
      obtain ⟨a, _, ha, hnil, rfl⟩ := List.forall₂_cons_left_iff.1 hanswers
      obtain rfl := List.forall₂_nil_left_iff.1 hnil
      obtain ⟨s', description, hs', rfl⟩ := ih ha.made
      unfold build
      rw [hd]
      exact ⟨s', _, hs', rfl⟩

variable {G : TypeGraph ρ} {policy : RequiredPolicy}

/-- Answers that are given one after the other without a guard firing are complete expansions, if the cache
was built from nothing. -/
theorem askAll_complete (hf : G.Faithful) (hc : G.Consistent) {ts : List (TypeRef ρ)}
    (hts : ∀ t ∈ ts, t ∈ G.refs) {session : Session ρ} (hcache : Grows G policy [] session.cache)
    (hhits : (askAll (compileRef G.env policy) ts session).2.context.guardHits =
      session.context.guardHits) :
    List.Forall₂ (Complete G.env policy) ts (askAll (compileRef G.env policy) ts session).1 := by
  have hasked : KeepsAll G policy ts session :=
    askAll_grows hf hts session fun t ht inside _ => compileRef_grows hf policy (hts t ht) inside
  have hgrows := hcache.trans hasked.grows
  refine ((List.forall₂_and_left _ _).2 ⟨hts, hasked.cached hhits⟩).imp ?_
  rintro t s ⟨ht, hs⟩
  obtain ⟨X, hX, hexpansion⟩ := hgrows.expansion hc hs
  exact hexpansion.2 t ht (cacheKey_injective policy hX)

/-- An untruncated call over an empty cache, for what has its parts in a graph, gives a schema that is made of
complete expansions. -/
theorem made_of_not_truncated (hf : G.Faithful) (hc : G.Consistent) {r : Request ρ}
    (hparts : ∀ u ∈ (r.root.load G.env).shape.parts, u ∈ G.refs) {maxDepth : Nat}
    (h : (r.run G.env policy (fresh maxDepth [])).2.context.isTruncated = false) :
    Made G.env policy (r.root.load G.env) (r.run G.env policy (fresh maxDepth [])).1 := by
  rw [Request.run_eq] at h ⊢
  have hhits : (compileRef G.env policy r.root (fresh maxDepth [])).2.context.guardHits = 0 := by
    simp only [Context.isTruncated, decide_eq_false_iff_not] at h
    exact Nat.eq_zero_of_not_pos h
  have hcached : cached? policy r.root.identity (fresh (ρ := ρ) maxDepth []).cache = none := rfl
  -- A root that is cut off counts as a hit already.
  cases hcut : cut? r.root.identity (fresh (ρ := ρ) maxDepth []).context with
  | some cut =>
      rw [compileRef_of_cut G.env hcached hcut] at hhits
      cases hhits
  | none =>
      rw [guardHits_of_open G.env hcached hcut] at hhits
      rw [compileRef_of_open G.env hcached hcut]
      exact ⟨_, askAll_complete hf hc hparts .refl hhits, rfl⟩

/-- All complete expansions of the references of a graph are given by one function. -/
theorem exists_answer (hc : G.Consistent) (policy : RequiredPolicy) :
    ∃ answer : TypeRef ρ → Schema, ∀ t ∈ G.refs, ∀ s, Complete G.env policy t s → s = answer t := by
  classical
  refine ⟨fun t => if h : ∃ s, Complete G.env policy t s then h.choose else {}, ?_⟩
  intro t ht s hs
  have hexists : ∃ s, Complete G.env policy t s := ⟨s, hs⟩
  simp only [dif_pos hexists]
  exact hc.complete_unique hs ht ht rfl hexists.choose_spec

/-- Where there are functions that give complete expansions, what is made of complete expansions is built of
theirs. -/
theorem Made.eq_build {answer : TypeRef ρ → Schema}
    (hanswer : ∀ t ∈ G.refs, ∀ s, Complete G.env policy t s → s = answer t) {d : Descriptor (TypeRef ρ)}
    (hd : ∀ u ∈ d.shape.parts, u ∈ G.refs) {s : Schema} (h : Made G.env policy d s) :
    s = build G.env policy d (d.shape.parts.map answer) := by
  obtain ⟨answers, hanswers, rfl⟩ := h
  have heq : answers = d.shape.parts.map answer := by
    rw [← List.forall₂_eq_eq_eq, List.forall₂_map_right_iff]
    refine ((List.forall₂_and_left _ _).2 ⟨hd, hanswers⟩).flip.imp ?_
    rintro s t ⟨ht, hs⟩
    exact hanswer t ht s hs
  rw [heq]

end Compile

end PayloadSchema
