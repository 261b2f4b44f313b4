import PayloadSchema.Proofs.Compile.Growth
import PayloadSchema.Proofs.Descriptor.Relation

/-!
# One type in two environments

Two environments may describe the same types by references of different kinds, under different identities.
If their references are linked so that each loads what the other loads, up to linked references, then the
complete expansions on both sides are the same, since an identity is shown nowhere but where a guard fires
or the key of a map is no text. What is not truncated is a complete expansion, whatever the depth limit
was and however identities met.

* `Linked` — references of two environments that load the same, link by link;
* `Linked.complete_eq` — they have the same complete expansion;
* `TypeGraph.complete_of_not_truncated` — which an untruncated call gives.
-/

namespace PayloadSchema

/-! ## Linked references -/

/-- References of two environments that load the same, up to linked references and identities, where the
keys of maps are texts. -/
structure Linked {ρ σ : Type} (env : Environment ρ) (env' : Environment σ)
    (R : TypeRef ρ → TypeRef σ → Prop) : Prop where
  description : ∀ t u, R t u → (t.load env).description = (u.load env').description
  shape : ∀ t u, R t u → (t.load env).shape.Rel Eq R (u.load env').shape
  keys : ∀ t u, R t u → Compile.hasTextKey env (t.load env).shape = true ∧
    Compile.hasTextKey env' (u.load env').shape = true

open Compile

/-- Linked references have the same complete expansion. -/
theorem Linked.complete_eq {ρ σ : Type} {env : Environment ρ} {env' : Environment σ}
    {R : TypeRef ρ → TypeRef σ → Prop} (hR : Linked env env' R) {policy : RequiredPolicy} {t : TypeRef ρ}
    {u : TypeRef σ} {s s' : Schema} (h : Complete env policy t s) (hlinked : R t u)
    (h' : Complete env' policy u s') : s = s' := by
  induction h generalizing u s' with
  | of_parts t answer hparts ih =>
      cases h' with
      | of_parts _ answer' hparts' =>
          have hshape := hR.shape t u hlinked
          obtain ⟨hkey, hkey'⟩ := hR.keys t u hlinked
          -- Linked shapes list linked parts position by position.
          have hanswers : (t.load env).shape.parts.map answer = (u.load env').shape.parts.map answer' := by
            have hrel := hshape.parts
            rw [map_eq_map_iff_forall₂]
            rw [List.forall₂_iff_get] at hrel ⊢
            refine ⟨hrel.1, ?_⟩
            intro n hn hn'
            exact ih _ (List.get_mem _ _) (hrel.2 n hn hn') (hparts' _ (List.get_mem _ _))
          rw [plain_eq, plain_eq, build, build, hkey, hkey', assemble_eq_of_rel hshape true nofun, hanswers,
            hR.description t u hlinked]

namespace TypeGraph

variable {ρ : Type} {G : TypeGraph ρ} {policy : RequiredPolicy}

/-- A call over an empty cache that is not truncated gives a complete expansion. -/
theorem complete_of_not_truncated (hf : G.Faithful) (hc : G.Consistent) {d : Descriptor (TypeRef ρ)}
    (hd : TypeRef.ready d ∈ G.refs) {maxDepth : Nat}
    (h : (compile G.env policy d (fresh maxDepth [])).2.context.isTruncated = false) :
    Complete G.env policy (.ready d) (compile G.env policy d (fresh maxDepth [])).1 := by
  have hcalls : ∀ call ∈ [(Compile.Request.descriptor d, maxDepth)], call.1.root ∈ G.refs := by
    intro call hcall
    rw [List.mem_singleton.1 hcall]
    exact hd
  have hresults := runAll_complete hf hc policy _ hcalls .refl
  cases hresults with
  | cons hresult _ => exact (hresult h).2 _ hd rfl

end TypeGraph

end PayloadSchema
