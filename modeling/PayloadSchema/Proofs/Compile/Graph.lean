import Mathlib.Data.List.Nodup
import Mathlib.Data.Set.Defs
import Mathlib.Logic.Relation
import PayloadSchema.Proofs.Compile.Calls
import PayloadSchema.Proofs.Descriptor.Relation

/-!
# Graphs of types

An environment with the references that are in use. Loading one of them mentions only others of them, so
that whatever is said of the references of a graph is said of all that a call can come to.

Two things are asked of a graph. It is *faithful* if a reference loads a descriptor with the reference's
own identity. It is *consistent* if references with one identity load descriptors with one *outline*, which
is the descriptor with identities in the place of references: how much of what is behind them is there
already, and under which handles the rest is loaded, may differ.

* `Shape.rel_iff` — shapes look the same if they differ in nothing but references that look the same;
* `TypeGraph.Consistent.build_eq` — references with one identity are compiled by one rule;
* `TypeGraph.ReachesCircle` — from an identity a circle can be reached through the parts of shapes.
-/

namespace PayloadSchema

open Compile

/-! ## Outlines -/

section

variable {σ τ : Type}

/-- A field over other references. -/
def Field.mapRefs (f : σ → τ) (field : Field σ) : Field τ :=
  { name := field.name, type := f field.type, metadata := field.metadata, optional := field.optional }

/-- A variant over other references. -/
def Variant.mapRefs (f : σ → τ) (v : Variant σ) : Variant τ :=
  { name := v.name, payload := v.payload.map f }

/-- A shape over other references. -/
def Shape.mapRefs (f : σ → τ) : Shape σ → Shape τ
  | .scalar s => .scalar s
  | .record fields casing => .record (fields.map (Field.mapRefs f)) casing
  | .list element => .list (f element)
  | .map key value => .map (f key) (f value)
  | .pointer target optional => .pointer (f target) optional
  | .enumeration variants => .enumeration (variants.map (Variant.mapRefs f))
  | .dynamic => .dynamic
  | .unsupported reason => .unsupported reason

variable {α : Type} {f : σ → α} {g : τ → α}

/-- Fields look the same if they differ in nothing but references that look the same. -/
theorem Field.rel_iff {field : Field σ} {field' : Field τ} :
    field.Rel (fun t u => f t = g u) field' ↔ field.mapRefs f = field'.mapRefs g := by
  constructor
  · intro h
    cases h with
    | intro name metadata optional h => rw [mapRefs, mapRefs, h]
  · intro h
    obtain ⟨name, t, metadata, optional⟩ := field
    obtain ⟨_, u, _, _⟩ := field'
    obtain ⟨rfl, htype, rfl, rfl⟩ := (Field.mk.injEq ..).mp h
    exact .intro name metadata optional htype

/-- Variants look the same if they differ in nothing but references that look the same. -/
theorem Variant.rel_iff {v : Variant σ} {v' : Variant τ} :
    v.Rel (fun t u => f t = g u) v' ↔ v.mapRefs f = v'.mapRefs g := by
  constructor
  · intro h
    cases h with
    | intro name h =>
        cases h with
        | none => rfl
        | some h => rw [mapRefs, mapRefs, Option.map_some, Option.map_some, h]
  · intro h
    obtain ⟨name, payload⟩ := v
    obtain ⟨_, payload'⟩ := v'
    obtain ⟨rfl, hpayload⟩ := (Variant.mk.injEq ..).mp h
    refine .intro name ?_
    -- A payload on one side only is refuted by the equation of the mapped variants.
    cases payload <;> cases payload' <;> simp only [Option.map_none, Option.map_some, reduceCtorEq,
      Option.some.injEq] at hpayload
    case none.none => exact .none
    case some.some => exact .some hpayload

/-- Shapes look the same if they differ in nothing but references that look the same. -/
theorem Shape.rel_iff {shape : Shape σ} {shape' : Shape τ} :
    shape.Rel Eq (fun t u => f t = g u) shape' ↔ shape.mapRefs f = shape'.mapRefs g := by
  constructor
  · intro h
    cases h with
    | record casing h => rw [mapRefs, mapRefs, map_eq_map_iff_forall₂.2 (h.imp fun _ _ => Field.rel_iff.1)]
    | list h => rw [mapRefs, mapRefs, h]
    | map hkey hvalue => rw [mapRefs, mapRefs, hkey, hvalue]
    | pointer optional h => rw [mapRefs, mapRefs, h]
    | enumeration h => rw [mapRefs, mapRefs, map_eq_map_iff_forall₂.2 (h.imp fun _ _ => Variant.rel_iff.1)]
    | unsupported h => rw [h, mapRefs, mapRefs]
    | _ => rfl
  · intro h
    -- Shapes of different kinds have different images, so only the diagonal cases are left.
    cases shape <;> cases shape' <;> simp only [mapRefs, reduceCtorEq] at h
    case scalar.scalar =>
      obtain rfl := Shape.scalar.inj h
      exact .scalar _
    case record.record =>
      obtain ⟨hfields, rfl⟩ := Shape.record.inj h
      exact .record _ ((map_eq_map_iff_forall₂.1 hfields).imp fun _ _ => Field.rel_iff.2)
    case list.list => exact .list (Shape.list.inj h)
    case map.map => exact .map (Shape.map.inj h).1 (Shape.map.inj h).2
    case pointer.pointer =>
      obtain ⟨htarget, rfl⟩ := Shape.pointer.inj h
      exact .pointer _ htarget
    case enumeration.enumeration =>
      exact .enumeration ((map_eq_map_iff_forall₂.1 (Shape.enumeration.inj h)).imp fun _ _ => Variant.rel_iff.2)
    case dynamic.dynamic => exact .dynamic
    case unsupported.unsupported => exact .unsupported (Shape.unsupported.inj h)

end

variable {ρ : Type}

/-- A descriptor with identities in the place of references. -/
def Descriptor.outline (d : Descriptor (TypeRef ρ)) : Descriptor String :=
  { identity := d.identity, shape := d.shape.mapRefs TypeRef.identity, description := d.description }

/-- Two outlines are equal if the descriptors agree but for references of one identity. -/
theorem Descriptor.outline_eq_iff {d e : Descriptor (TypeRef ρ)} :
    d.outline = e.outline ↔ d.identity = e.identity ∧
      d.shape.mapRefs TypeRef.identity = e.shape.mapRefs TypeRef.identity ∧
      d.description = e.description := by
  unfold outline
  rw [Descriptor.mk.injEq]

/-! ## Graphs -/

/-- An environment with references that mention only one another. -/
structure TypeGraph (ρ : Type) where
  env : Environment ρ
  refs : Set (TypeRef ρ)
  closed : ∀ t ∈ refs, ∀ u ∈ (t.load env).shape.mentions, u ∈ refs

namespace TypeGraph

variable {G : TypeGraph ρ}

/-- A reference loads a descriptor with its own identity. -/
def Faithful (G : TypeGraph ρ) : Prop := ∀ t ∈ G.refs, (t.load G.env).identity = t.identity

/-- References with one identity load descriptors with one outline. -/
def Consistent (G : TypeGraph ρ) : Prop :=
  ∀ t ∈ G.refs, ∀ u ∈ G.refs, t.identity = u.identity →
    (t.load G.env).outline = (u.load G.env).outline

/-- Parts of references of a graph are in the graph. -/
theorem mem_of_mem_parts {t : TypeRef ρ} (ht : t ∈ G.refs) :
    ∀ u ∈ (t.load G.env).shape.parts, u ∈ G.refs := by
  intro u hu
  exact G.closed t ht u (Shape.mem_mentions_of_mem_parts hu)

/-- References with one identity load shapes that differ in references of one identity at most. -/
theorem Consistent.shape_rel (hG : G.Consistent) {t u : TypeRef ρ} (ht : t ∈ G.refs) (hu : u ∈ G.refs)
    (h : t.identity = u.identity) :
    (t.load G.env).shape.Rel Eq (fun t' u' => t'.identity = u'.identity) (u.load G.env).shape :=
  Shape.rel_iff.2 (Descriptor.outline_eq_iff.1 (hG t ht u hu h)).2.1

/-- Whether a type is a key depends on its outline only. -/
theorem Consistent.isTextKeyWithin_eq (hG : G.Consistent) (hops : Nat) (seen : List String)
    {t u : TypeRef ρ} (ht : t ∈ G.refs) (hu : u ∈ G.refs) (h : t.identity = u.identity) :
    (Descriptor.isTextKeyWithin G.env hops seen (t.load G.env)).1 =
      (Descriptor.isTextKeyWithin G.env hops seen (u.load G.env)).1 := by
  induction hops generalizing seen t u with
  | zero => rfl
  | succ hops ih =>
      have hidentity := (Descriptor.outline_eq_iff.1 (hG t ht u hu h)).1
      have hshape := hG.shape_rel ht hu h
      have hclosed := G.closed t ht
      have hclosed' := G.closed u hu
      rw [Descriptor.isTextKeyWithin, Descriptor.isTextKeyWithin, hidentity]
      generalize (t.load G.env).shape = shape at hshape hclosed ⊢
      generalize (u.load G.env).shape = shape' at hshape hclosed' ⊢
      split
      · rfl
      · cases hshape with
        | pointer optional htarget =>
          -- the only shape that is looked through: the targets have one identity again
          exact ih _ (hclosed _ List.mem_cons_self) (hclosed' _ List.mem_cons_self) htarget
        | enumeration hvariants => exact Variant.Rel.all_isNone_eq hvariants
        | _ => rfl

/-- Whether the key of a map is a text depends on the outline only. -/
theorem Consistent.hasTextKey_eq (hG : G.Consistent) {t u : TypeRef ρ} (ht : t ∈ G.refs)
    (hu : u ∈ G.refs) (h : t.identity = u.identity) :
    hasTextKey G.env (t.load G.env).shape = hasTextKey G.env (u.load G.env).shape := by
  have hshape := hG.shape_rel ht hu h
  have hclosed := G.closed t ht
  have hclosed' := G.closed u hu
  generalize (t.load G.env).shape = shape at hshape hclosed ⊢
  generalize (u.load G.env).shape = shape' at hshape hclosed' ⊢
  cases hshape with
  | map hkey _ =>
      exact hG.isTextKeyWithin_eq _ [] (hclosed _ List.mem_cons_self) (hclosed' _ List.mem_cons_self) hkey
  | _ => rfl

/-- References with one identity are compiled by one rule. -/
theorem Consistent.build_eq (hG : G.Consistent) (policy : RequiredPolicy) {t u : TypeRef ρ}
    (ht : t ∈ G.refs) (hu : u ∈ G.refs) (h : t.identity = u.identity) (answers : List Schema) :
    build G.env policy (t.load G.env) answers = build G.env policy (u.load G.env) answers := by
  have hdescription := (Descriptor.outline_eq_iff.1 (hG t ht u hu h)).2.2
  unfold build
  rw [hG.hasTextKey_eq ht hu h, hdescription, assemble_eq_of_rel (hG.shape_rel ht hu h) _ fun _ _ _ h => h]

/-- The parts of references with one identity have the same identities in the same order. -/
theorem Consistent.parts_eq (hG : G.Consistent) {t u : TypeRef ρ} (ht : t ∈ G.refs) (hu : u ∈ G.refs)
    (h : t.identity = u.identity) :
    (t.load G.env).shape.parts.map TypeRef.identity =
      (u.load G.env).shape.parts.map TypeRef.identity :=
  map_eq_map_iff_forall₂.2 (hG.shape_rel ht hu h).parts

/-! ## Circles -/

/-- From one identity to another that is among the parts of what it stands for. -/
def Encloses (G : TypeGraph ρ) (X Y : String) : Prop :=
  ∃ t ∈ G.refs, t.identity = X ∧ ∃ u ∈ (t.load G.env).shape.parts, u.identity = Y

/-- From an identity a circle can be reached through the parts of shapes. -/
def ReachesCircle (G : TypeGraph ρ) (X : String) : Prop :=
  ∃ Y, Relation.ReflTransGen G.Encloses X Y ∧ Relation.TransGen G.Encloses Y Y

/-- Whichever reference stands for an identity, it has a part for each identity enclosed. -/
theorem Consistent.exists_part (hG : G.Consistent) {X Y : String} (h : G.Encloses X Y) {t : TypeRef ρ}
    (ht : t ∈ G.refs) (hX : t.identity = X) : ∃ u ∈ (t.load G.env).shape.parts, u.identity = Y := by
  rcases h with ⟨t', ht', hX', u', hu', hY⟩
  have hparts := hG.parts_eq ht ht' (hX.trans hX'.symm)
  have hmem : Y ∈ (t'.load G.env).shape.parts.map TypeRef.identity :=
    List.mem_map.2 ⟨u', hu', hY⟩
  rw [← hparts] at hmem
  exact List.mem_map.1 hmem

/-! ## Finite graphs -/

/-- The graph of the references of a list that mention only one another. -/
def ofList (env : Environment ρ) (ts : List (TypeRef ρ))
    (closed : ∀ t ∈ ts, ∀ u ∈ (t.load env).shape.mentions, u ∈ ts) : TypeGraph ρ where
  env := env
  refs := {t | t ∈ ts}
  closed := closed

/-- References mention only one another if what each of them mentions is found at some places of the list. -/
theorem closed_of_places {env : Environment ρ} {ts : List (TypeRef ρ)} (places : List (List Nat))
    (h : ts.map (fun t => (t.load env).shape.mentions) = places.map fun row => row.filterMap (ts[·]?)) :
    ∀ t ∈ ts, ∀ u ∈ (t.load env).shape.mentions, u ∈ ts := by
  intro t ht u hu
  have hmentions : (t.load env).shape.mentions ∈ places.map fun row => row.filterMap (ts[·]?) :=
    h ▸ List.mem_map_of_mem ht
  obtain ⟨row, -, heq⟩ := List.mem_map.1 hmentions
  rw [← heq] at hu
  obtain ⟨i, -, hi⟩ := List.mem_filterMap.1 hu
  exact List.mem_of_getElem? hi

/-- Whether a list of references is faithful is seen by loading each of them. -/
theorem faithful_ofList {env : Environment ρ} {ts : List (TypeRef ρ)}
    {closed : ∀ t ∈ ts, ∀ u ∈ (t.load env).shape.mentions, u ∈ ts}
    (h : ∀ t ∈ ts, (t.load env).identity = t.identity) : (ofList env ts closed).Faithful :=
  h

/-- References with identities of their own are consistent. -/
theorem consistent_ofList {env : Environment ρ} {ts : List (TypeRef ρ)}
    {closed : ∀ t ∈ ts, ∀ u ∈ (t.load env).shape.mentions, u ∈ ts}
    (h : (ts.map TypeRef.identity).Nodup) : (ofList env ts closed).Consistent := by
  intro t ht u hu hid
  rw [List.inj_on_of_nodup_map h ht hu hid]

end TypeGraph

/-! ## A tree -/

namespace Tree

def text : TypeRef Unit := .ready (.scalar "string" .text)

/-- The tree, which is loaded on demand. -/
def self : TypeRef Unit := .deferred "Tree" ()

def subtrees : TypeRef Unit := .ready (.list self)

/-- A tree has a label and subtrees. -/
def env : Environment Unit where
  load _ := .record "Tree" [{ name := "label", type := text }, { name := "subtrees", type := subtrees }] none

theorem closed : ∀ t ∈ [self, text, subtrees], ∀ u ∈ (t.load env).shape.mentions,
    u ∈ [self, text, subtrees] :=
  TypeGraph.closed_of_places [[1, 2], [], [0]] rfl

def graph : TypeGraph Unit := .ofList env [self, text, subtrees] closed

theorem faithful : graph.Faithful := TypeGraph.faithful_ofList (by decide)

theorem consistent : graph.Consistent := TypeGraph.consistent_ofList (by decide)

/-- A tree has subtrees, which are trees. -/
theorem reachesCircle : graph.ReachesCircle "Tree" := by
  have hself : self ∈ graph.refs := List.mem_cons_self
  have hsubtrees : subtrees ∈ graph.refs := List.mem_cons_of_mem _ (List.mem_cons_of_mem _ List.mem_cons_self)
  have hdown : graph.Encloses "Tree" subtrees.identity :=
    ⟨self, hself, rfl, subtrees, List.mem_cons_of_mem _ List.mem_cons_self, rfl⟩
  have hup : graph.Encloses subtrees.identity "Tree" :=
    ⟨subtrees, hsubtrees, rfl, self, List.mem_cons_self, rfl⟩
  exact ⟨"Tree", .refl, (Relation.TransGen.single hdown).tail hup⟩

end Tree

end PayloadSchema
