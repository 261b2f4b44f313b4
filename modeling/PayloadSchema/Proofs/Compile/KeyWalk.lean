import PayloadSchema.Proofs.Compile.Keys
import PayloadSchema.Proofs.Compile.Machine

/-!
# The look at a key

To find whether a type is a key, pointers are followed from descriptor to descriptor. The descriptors behind
references may be new for ever, or come back in a circle, so nothing but the look itself makes it end: it keeps
the identities that it met, stops at one that it met before, and stops when it has met `keyHops` of them.

`Looks` is the look as a loop of hops, in which nothing says beforehand how far it goes. `Chain` is what the look
is for: a way along pointers, with the identities of the descriptors on it.

* `exists_looks` — the loop ends, with the answer of the look that counts its hops down;
* `isTextKeyWithin_iff` — the answer of a look that has come some way already;
* `isTextKey_iff` — the whole look: how it ends, and what its answer says.
-/

namespace PayloadSchema

theorem Shape.exists_of_isPointer {τ : Type} {shape : Shape τ} (h : shape.isPointer = true) :
    ∃ target optional, shape = .pointer target optional := by
  cases shape with
  | pointer target optional => exact ⟨target, optional, rfl⟩
  | _ => cases h

namespace Compile

open Descriptor (keyHops isTextKeyWithin)

variable {ρ : Type} {env : Environment ρ} {seen : List String} {d e : Descriptor (TypeRef ρ)}

/-! ## One hop -/

/-- A type that was seen before, or comes too late, is no text. -/
theorem hop_of_stop (h : d.identity ∈ seen ∨ keyHops ≤ seen.length) : hop env d seen = (.close false, []) := by
  unfold hop
  by_cases hseen : d.identity ∈ seen
  · rw [if_pos hseen]
  · rw [if_neg hseen, if_pos (h.resolve_left hseen)]

/-- A type that is no pointer ends the walk, and is a text or not. -/
theorem hop_of_last (hnew : d.identity ∉ seen) (hroom : seen.length < keyHops) (h : d.shape.isPointer = false) :
    hop env d seen = (.close d.shape.isText, []) := by
  unfold hop
  rw [if_neg hnew, if_neg (Nat.not_le.2 hroom)]
  cases hshape : d.shape with
  | scalar s => cases s <;> rfl
  | pointer target optional =>
      rw [hshape] at h
      cases h
  | _ => rfl

/-- A pointer leads to its target, which is loaded. -/
theorem hop_of_pointer (hnew : d.identity ∉ seen) (hroom : seen.length < keyHops) {target : TypeRef ρ}
    {optional : Bool} (h : d.shape = .pointer target optional) :
    hop env d seen = (.key (target.load env) (d.identity :: seen), target.loads) := by
  unfold hop
  rw [if_neg hnew, if_neg (Nat.not_le.2 hroom), h]

/-- A hop loads one descriptor at most. -/
theorem length_hop_le (env : Environment ρ) (seen : List String) (d : Descriptor (TypeRef ρ)) :
    (hop env d seen).2.length ≤ 1 := by
  -- A hop loads at most the target of one pointer, and only when that target is deferred.
  by_cases hstop : d.identity ∈ seen ∨ keyHops ≤ seen.length
  · rw [hop_of_stop hstop]
    exact Nat.zero_le 1
  · rcases not_or.1 hstop with ⟨hnew, hroom⟩
    cases hpointer : d.shape.isPointer with
    | false =>
        rw [hop_of_last hnew (Nat.not_le.1 hroom) hpointer]
        exact Nat.zero_le 1
    | true =>
        rcases Shape.exists_of_isPointer hpointer with ⟨target, optional, hd⟩
        rw [hop_of_pointer hnew (Nat.not_le.1 hroom) hd]
        cases target with
        | ready => exact Nat.zero_le 1
        | deferred => exact Nat.le_refl 1

/-! ## The loop -/

/-- The look at a key goes on hop by hop until there is an answer, whenever that is: so many descriptors are
looked at, the last one of them with the answer, and these handles are loaded, the last one first. -/
inductive Looks (env : Environment ρ) : Nat → List String → Descriptor (TypeRef ρ) → Bool × List ρ → Prop where
  | last {seen : List String} {d : Descriptor (TypeRef ρ)} {answer : Bool}
      (h : hop env d seen = (.close answer, [])) : Looks env 1 seen d (answer, [])
  | next {n : Nat} {seen seen' : List String} {d e : Descriptor (TypeRef ρ)} {loads : List ρ}
      {result : Bool × List ρ} (h : hop env d seen = (.key e seen', loads)) (hrest : Looks env n seen' e result) :
      Looks env (n + 1) seen d (result.1, result.2 ++ loads)

/-- A look ends in one way. -/
theorem Looks.unique {n m : Nat} {result result' : Bool × List ρ} (h : Looks env n seen d result)
    (h' : Looks env m seen d result') : m = n ∧ result' = result := by
  induction h generalizing m result' with
  | last h =>
      -- A hop is a function: two runs that differ would have to stop at different answers of it.
      cases h' with
      | last h' =>
          rw [h] at h'
          cases h'
          exact ⟨rfl, rfl⟩
      | next h' =>
          rw [h] at h'
          cases h'
  | next h _ ih =>
      cases h' with
      | last h' =>
          rw [h] at h'
          cases h'
      | next h' hrest' =>
          rw [h] at h'
          cases h'
          rcases ih hrest' with ⟨rfl, rfl⟩
          exact ⟨rfl, rfl⟩

/-- What is loaded is looked at, and so is the first descriptor. -/
theorem Looks.length_loads_lt {n : Nat} {result : Bool × List ρ} (h : Looks env n seen d result) :
    result.2.length < n := by
  induction h with
  | last => exact Nat.zero_lt_one
  | @next n seen seen' d e loads result h _ ih =>
      have hloads := length_hop_le env seen d
      rw [h] at hloads
      rw [List.length_append]
      exact Nat.add_lt_add_of_lt_of_le ih hloads

/-- **The look ends.** Each hop that is not the last meets one identity more, so after as many hops as are left
the loop stops, with the answer of the look that counts them down. -/
theorem exists_looks (env : Environment ρ) (hops : Nat) (seen : List String) (d : Descriptor (TypeRef ρ))
    (h : hops + seen.length = keyHops) : ∃ n ≤ hops + 1, Looks env n seen d (isTextKeyWithin env hops seen d) := by
  -- the look counts the hops that are left, the loop the identities it met; together they stay `keyHops`
  induction hops generalizing seen d with
  | zero =>
      -- where the look is at its end, the loop still makes a hop, which finds that it met enough
      have hfull : keyHops ≤ seen.length := by omega
      exact ⟨1, Nat.le_refl 1, .last (hop_of_stop (.inr hfull))⟩
  | succ hops ih =>
      have hroom : seen.length < keyHops := by omega
      by_cases hseen : d.identity ∈ seen
      · have hstop : isTextKeyWithin env (hops + 1) seen d = (false, []) := by
          rw [isTextKeyWithin, if_pos (List.contains_iff_mem.2 hseen)]
        rw [hstop]
        exact ⟨1, Nat.succ_le_succ (Nat.zero_le _), .last (hop_of_stop (.inl hseen))⟩
      · cases hpointer : d.shape.isPointer with
        | false =>
            rw [isTextKeyWithin_of_last env hops hseen hpointer]
            exact ⟨1, Nat.succ_le_succ (Nat.zero_le _), .last (hop_of_last hseen hroom hpointer)⟩
        | true =>
            rcases Shape.exists_of_isPointer hpointer with ⟨target, optional, hd⟩
            have hleft : hops + (d.identity :: seen).length = keyHops := by
              rw [List.length_cons]
              omega
            rcases ih (d.identity :: seen) (target.load env) hleft with ⟨n, hn, hrest⟩
            rw [isTextKeyWithin_of_pointer env hops hseen hd]
            exact ⟨n + 1, Nat.succ_le_succ hn, .next (hop_of_pointer hseen hroom hd) hrest⟩

end Compile

namespace Descriptor

variable {ρ : Type} {env : Environment ρ} {identities seen : List String} {d e : Descriptor (TypeRef ρ)}

/-! ## Ways along pointers -/

/-- Pointers lead from a descriptor to another one by way of descriptors with these identities. Both ends count,
so there is an identity for each descriptor that is looked at. -/
inductive Chain (env : Environment ρ) : List String → Descriptor (TypeRef ρ) → Descriptor (TypeRef ρ) → Prop where
  | here (d : Descriptor (TypeRef ρ)) : Chain env [d.identity] d d
  | step {identities : List String} {d e : Descriptor (TypeRef ρ)} {target : TypeRef ρ} {optional : Bool}
      (hd : d.shape = .pointer target optional) (h : Chain env identities (target.load env) e) :
      Chain env (d.identity :: identities) d e

/-- A chain goes through the type that it begins with. -/
theorem Chain.identity_mem (h : Chain env identities d e) : d.identity ∈ identities := by
  cases h with
  | here => exact List.mem_singleton_self _
  | step => exact List.mem_cons_self

/-- From what is no pointer there is no way on. -/
theorem Chain.of_last (h : Chain env identities d e) (hlast : d.shape.isPointer = false) : e = d := by
  cases h with
  | here => rfl
  | step hd =>
      rw [hd] at hlast
      cases hlast

/-- A way from a pointer to a text goes on behind the pointer. -/
theorem Chain.of_pointer {target : TypeRef ρ} {optional : Bool} (h : Chain env identities d e)
    (hd : d.shape = .pointer target optional) (htext : e.shape.isText = true) :
    ∃ rest, identities = d.identity :: rest ∧ Chain env rest (target.load env) e := by
  cases h with
  | here =>
      rw [hd] at htext
      cases htext
  | step hd' hrest =>
      rw [hd] at hd'
      cases hd'
      exact ⟨_, rfl, hrest⟩

/-- A text is reached along pointers, as one of so many descriptors, all of which have different identities that
were not met before. -/
def ReachesText (env : Environment ρ) (hops : Nat) (seen : List String) (d : Descriptor (TypeRef ρ)) : Prop :=
  ∃ identities e, Chain env identities d e ∧ e.shape.isText = true ∧ identities.length ≤ hops ∧
    identities.Nodup ∧ ∀ X ∈ identities, X ∉ seen

theorem not_reachesText_zero : ¬ ReachesText env 0 seen d := by
  rintro ⟨identities, e, hchain, -, hlength, -⟩
  have hpos := List.length_pos_of_mem hchain.identity_mem
  omega

/-- From a type that was seen before nothing is reached. -/
theorem not_reachesText_of_mem {hops : Nat} (h : d.identity ∈ seen) : ¬ ReachesText env hops seen d := by
  rintro ⟨identities, e, hchain, -, -, -, hnew⟩
  exact hnew _ hchain.identity_mem h

/-- A type that is no pointer reaches a text if it is one. -/
theorem reachesText_of_last {hops : Nat} (hnew : d.identity ∉ seen) (h : d.shape.isPointer = false) :
    ReachesText env (hops + 1) seen d ↔ d.shape.isText = true := by
  constructor
  · rintro ⟨identities, e, hchain, htext, -⟩
    rwa [← hchain.of_last h]
  · intro htext
    have hlength : [d.identity].length ≤ hops + 1 := Nat.succ_le_succ (Nat.zero_le hops)
    have hfresh : ∀ X ∈ [d.identity], X ∉ seen := List.forall_mem_singleton.2 hnew
    exact ⟨[d.identity], d, .here d, htext, hlength, List.nodup_singleton _, hfresh⟩

/-- A pointer reaches what its target reaches, with one hop fewer. -/
theorem reachesText_of_pointer {hops : Nat} (hnew : d.identity ∉ seen) {target : TypeRef ρ} {optional : Bool}
    (hd : d.shape = .pointer target optional) :
    ReachesText env (hops + 1) seen d ↔ ReachesText env hops (d.identity :: seen) (target.load env) := by
  constructor
  · rintro ⟨identities, e, hchain, htext, hlength, hnodup, hfresh⟩
    -- A chain to a text cannot stop at a pointer, so its first step is this one.
    rcases hchain.of_pointer hd htext with ⟨rest, rfl, hrest⟩
    rcases List.nodup_cons.1 hnodup with ⟨hnot, hnodup⟩
    rcases List.forall_mem_cons.1 hfresh with ⟨-, hfresh⟩
    refine ⟨rest, e, hrest, htext, Nat.le_of_succ_le_succ hlength, hnodup, ?_⟩
    intro X hX hmem
    rcases List.mem_cons.1 hmem with rfl | hmem
    · exact hnot hX
    · exact hfresh X hX hmem
  · rintro ⟨identities, e, hchain, htext, hlength, hnodup, hfresh⟩
    -- The identity just left is among the seen ones, so the chain behind it stays free of repeats.
    have hnot : d.identity ∉ identities := by
      intro hmem
      exact hfresh _ hmem List.mem_cons_self
    have hnodup' := List.nodup_cons.2 ⟨hnot, hnodup⟩
    refine ⟨d.identity :: identities, e, .step hd hchain, htext, Nat.succ_le_succ hlength, hnodup', ?_⟩
    rw [List.forall_mem_cons]
    refine ⟨hnew, ?_⟩
    intro X hX hmem
    exact hfresh X hX (List.mem_cons_of_mem _ hmem)

/-- A look that has met some identities finds a key if and only if a text is reached within its hops by way of
new ones. -/
theorem isTextKeyWithin_iff (env : Environment ρ) (hops : Nat) (seen : List String) (d : Descriptor (TypeRef ρ)) :
    (isTextKeyWithin env hops seen d).1 = true ↔ ReachesText env hops seen d := by
  induction hops generalizing seen d with
  | zero =>
      have hstop : (isTextKeyWithin env 0 seen d).1 = false := rfl
      rw [hstop]
      exact iff_of_false Bool.false_ne_true not_reachesText_zero
  | succ hops ih =>
      -- The look stops at a repeat and at the end of the hops; both times no fresh chain exists either.
      by_cases hseen : d.identity ∈ seen
      · have hstop : (isTextKeyWithin env (hops + 1) seen d).1 = false := by
          rw [isTextKeyWithin, if_pos (List.contains_iff_mem.2 hseen)]
        rw [hstop]
        exact iff_of_false Bool.false_ne_true (not_reachesText_of_mem hseen)
      · cases hpointer : d.shape.isPointer with
        | false =>
            rw [Compile.isTextKeyWithin_of_last env hops hseen hpointer]
            exact (reachesText_of_last hseen hpointer).symm
        | true =>
            rcases Shape.exists_of_isPointer hpointer with ⟨target, optional, hd⟩
            rw [Compile.isTextKeyWithin_of_pointer env hops hseen hd, reachesText_of_pointer hseen hd]
            exact ih (d.identity :: seen) (target.load env)

/-! ## Whole looks -/

/-- **The look at a key ends and is exact**, in any environment. The loop ends after one number of descriptors,
`keyHops + 1` at most, and in one way: with what is answered, and with the handles that are listed as loaded. The
answer is yes if and only if pointers lead to a text by way of no more than `keyHops` descriptors, itself among
them, whose identities are all different. -/
theorem isTextKey_iff (env : Environment ρ) (d : Descriptor (TypeRef ρ)) :
    (∃ n ≤ keyHops + 1, ∀ m result, Compile.Looks env m [] d result ↔ m = n ∧ result = d.textKey env) ∧
      (d.textKey env).2.length ≤ keyHops ∧
      (d.isTextKey env = true ↔ ∃ identities e, Chain env identities d e ∧ e.shape.isText = true ∧
        identities.length ≤ keyHops ∧ identities.Nodup) := by
  rcases Compile.exists_looks env keyHops [] d rfl with ⟨n, hn, hlooks⟩
  refine ⟨⟨n, hn, ?_⟩, ?_, ?_⟩
  · intro m result
    constructor
    · intro hlooks'
      exact hlooks.unique hlooks'
    · rintro ⟨rfl, rfl⟩
      exact hlooks
  · exact Nat.le_of_lt_succ (Nat.lt_of_lt_of_le hlooks.length_loads_lt hn)
  · -- Nothing is seen at the start, so the freshness of the chain says nothing more than that it has no
    -- repeats.
    have hreaches := isTextKeyWithin_iff env keyHops [] d
    simp only [ReachesText, List.not_mem_nil, not_false_eq_true, implies_true, and_true] at hreaches
    exact hreaches

/-- A pointer at each rung of a ladder but the last, where there is a text. -/
def ladder (height : Nat) : Environment Nat where
  load n :=
    let identity := String.ofList (List.replicate n '|')
    let next := String.ofList (List.replicate (n + 1) '|')
    if n < height then { identity, shape := .pointer (.deferred next (n + 1)) false } else .scalar identity .text

-- the last descriptor that counts is the one with number `keyHops`
example : ((ladder 31).load 0).isTextKey (ladder 31) = true ∧ ((ladder 32).load 0).isTextKey (ladder 32) = false := by
  decide +kernel

end Descriptor

end PayloadSchema
