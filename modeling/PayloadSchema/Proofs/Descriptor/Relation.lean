import Mathlib.Data.List.Forall2
import Mathlib.Logic.Relation
import PayloadSchema.Proofs.Compile.Parts

/-!
# Descriptors over related references

Two descriptors say the same of a type if they differ in nothing but their references, and the references
at each place are related. Reasons for which a type has no schema are texts for a reader, so they are only
asked to be related as well.

* `Shape.Rel`, `Descriptor.Rel` — the two relations;
* `Shape.Rel.mentions` — what related shapes lead to is related place by place;
* `Compile.assemble_eq_of_rel` — of the same answers the same is assembled for both.
-/

namespace PayloadSchema

variable {σ τ : Type}

/-- What is in one of two lists that are related place by place is related to something in the other one. -/
theorem exists_right_of_mem {α β : Type} {R : α → β → Prop} {as : List α} {bs : List β}
    (h : List.Forall₂ R as bs) {a : α} (ha : a ∈ as) : ∃ b ∈ bs, R a b := by
  induction h with
  | nil => cases ha
  | cons hab _ ih =>
      rcases List.mem_cons.1 ha with rfl | ha
      · exact ⟨_, List.mem_cons_self, hab⟩
      · obtain ⟨b, hb, hab⟩ := ih ha
        exact ⟨b, List.mem_cons_of_mem _ hb, hab⟩

/-- Lists show the same if what is in them does, place by place. -/
theorem map_eq_map_iff_forall₂ {α β γ : Type} {f : α → γ} {g : β → γ} {as : List α} {bs : List β} :
    as.map f = bs.map g ↔ List.Forall₂ (fun a b => f a = g b) as bs := by
  rw [← List.forall₂_eq_eq_eq, List.forall₂_map_left_iff, List.forall₂_map_right_iff]

/-- Two values that are there and related, or none on both sides. -/
inductive SameOption (R : σ → τ → Prop) : Option σ → Option τ → Prop where
  | none : SameOption R none none
  | some {a : σ} {b : τ} (h : R a b) : SameOption R (some a) (some b)

/-- Values that may be missing stay related in a weaker sense. -/
theorem SameOption.mono {R R' : σ → τ → Prop} (hR : ∀ t u, R t u → R' t u) {o : Option σ} {o' : Option τ}
    (h : SameOption R o o') : SameOption R' o o' := by
  cases h with
  | none => exact .none
  | some h => exact .some (hR _ _ h)

/-- Of two values that are related none is there without the other. -/
theorem SameOption.isSome_eq {R : σ → τ → Prop} {o : Option σ} {o' : Option τ} (h : SameOption R o o') :
    o.isSome = o'.isSome := by
  cases h <;> rfl

/-- Under each name there are related values, if the same names stand in the same order. -/
theorem sameOption_lookup {R : σ → τ → Prop} {xs : List (String × σ)} {ys : List (String × τ)}
    (h : List.Forall₂ (fun entry entry' => entry.1 = entry'.1 ∧ R entry.2 entry'.2) xs ys) (name : String) :
    SameOption R (xs.lookup name) (ys.lookup name) := by
  induction h with
  | nil => exact .none
  | @cons entry entry' xs ys hentry _ ih =>
      obtain ⟨key, value⟩ := entry
      obtain ⟨key', value'⟩ := entry'
      obtain ⟨hkey, hvalue⟩ := hentry
      dsimp only at hkey
      subst hkey
      rw [List.lookup_cons, List.lookup_cons]
      -- Equal keys, so both look-ups stop at the same entry or both go on.
      split
      · exact .some hvalue
      · exact ih

/-- Two outcomes that are both there and related, or one error. -/
inductive SameExcept {ε : Type} (R : σ → τ → Prop) : Except ε σ → Except ε τ → Prop where
  | ok {a : σ} {b : τ} (h : R a b) : SameExcept R (.ok a) (.ok b)
  | error (e : ε) : SameExcept R (.error e) (.error e)

/-- What is done with related outcomes gives related outcomes, if it does so with related values. -/
theorem SameExcept.bind {ε σ' τ' : Type} {R : σ → τ → Prop} {R' : σ' → τ' → Prop} {x : Except ε σ}
    {y : Except ε τ} (h : SameExcept R x y) {f : σ → Except ε σ'} {g : τ → Except ε τ'}
    (hfg : ∀ a b, R a b → SameExcept R' (f a) (g b)) : SameExcept R' (x >>= f) (y >>= g) := by
  cases h with
  | ok h => exact hfg _ _ h
  | error e => exact .error e

/-- Two fields that differ in their references at most. -/
inductive Field.Rel (R : σ → τ → Prop) : Field σ → Field τ → Prop where
  | intro (name : String) (metadata : FieldMetadata) (optional : Bool) {t : σ} {u : τ} (h : R t u) :
      Rel R ⟨name, t, metadata, optional⟩ ⟨name, u, metadata, optional⟩

/-- Two variants that differ in their references at most. -/
inductive Variant.Rel (R : σ → τ → Prop) : Variant σ → Variant τ → Prop where
  | intro (name : String) {payload : Option σ} {payload' : Option τ} (h : SameOption R payload payload') :
      Rel R ⟨name, payload⟩ ⟨name, payload'⟩

/-- Two shapes that differ in their references and reasons at most. -/
inductive Shape.Rel (Q : String → String → Prop) (R : σ → τ → Prop) : Shape σ → Shape τ → Prop where
  | scalar (s : Scalar) : Rel Q R (.scalar s) (.scalar s)
  | record {fields : List (Field σ)} {fields' : List (Field τ)} (casing : Option Casing)
      (h : List.Forall₂ (Field.Rel R) fields fields') : Rel Q R (.record fields casing) (.record fields' casing)
  | list {element : σ} {element' : τ} (h : R element element') : Rel Q R (.list element) (.list element')
  | map {key value : σ} {key' value' : τ} (hkey : R key key') (hvalue : R value value') :
      Rel Q R (.map key value) (.map key' value')
  | pointer {target : σ} {target' : τ} (optional : Bool) (h : R target target') :
      Rel Q R (.pointer target optional) (.pointer target' optional)
  | enumeration {variants : List (Variant σ)} {variants' : List (Variant τ)}
      (h : List.Forall₂ (Variant.Rel R) variants variants') :
      Rel Q R (.enumeration variants) (.enumeration variants')
  | dynamic : Rel Q R .dynamic .dynamic
  | unsupported {reason reason' : String} (h : Q reason reason') :
      Rel Q R (.unsupported reason) (.unsupported reason')

/-- Two descriptors of one identity that differ in their references and reasons at most. -/
inductive Descriptor.Rel (Q : String → String → Prop) (R : σ → τ → Prop) :
    Descriptor σ → Descriptor τ → Prop where
  | intro (identity : String) (description : Option String) {shape : Shape σ} {shape' : Shape τ}
      (h : shape.Rel Q R shape') : Rel Q R ⟨identity, shape, description⟩ ⟨identity, shape', description⟩

variable {Q Q' : String → String → Prop} {R R' : σ → τ → Prop}

/-- Descriptors are related if their shapes are and all else is equal. -/
theorem Descriptor.Rel.of_eq {d : Descriptor σ} {d' : Descriptor τ} (hidentity : d.identity = d'.identity)
    (hdescription : d.description = d'.description) (h : d.shape.Rel Q R d'.shape) : d.Rel Q R d' := by
  rcases d with ⟨identity, shape, description⟩
  rcases d' with ⟨identity', shape', description'⟩
  dsimp only at hidentity hdescription
  rw [← hidentity, ← hdescription]
  exact .intro identity description h

theorem Descriptor.Rel.shape {d : Descriptor σ} {d' : Descriptor τ} (h : d.Rel Q R d') :
    d.shape.Rel Q R d'.shape := by
  cases h with
  | intro _ _ h => exact h

theorem Descriptor.Rel.description_eq {d : Descriptor σ} {d' : Descriptor τ} (h : d.Rel Q R d') :
    d.description = d'.description := by
  cases h
  rfl

/-! ## Weaker relations -/

/-- Fields stay related in a weaker sense. -/
theorem Field.Rel.mono (hR : ∀ t u, R t u → R' t u) {field : Field σ} {field' : Field τ}
    (h : field.Rel R field') : field.Rel R' field' := by
  cases h with
  | intro name metadata optional h => exact .intro name metadata optional (hR _ _ h)

/-- Variants stay related in a weaker sense. -/
theorem Variant.Rel.mono (hR : ∀ t u, R t u → R' t u) {v : Variant σ} {v' : Variant τ}
    (h : v.Rel R v') : v.Rel R' v' := by
  cases h with
  | intro name h => exact .intro name (h.mono hR)

/-- Shapes that are related closely are related loosely. -/
theorem Shape.Rel.mono (hQ : ∀ r s, Q r s → Q' r s) (hR : ∀ t u, R t u → R' t u) {shape : Shape σ}
    {shape' : Shape τ} (h : shape.Rel Q R shape') : shape.Rel Q' R' shape' := by
  cases h with
  | scalar s => exact .scalar s
  | record casing h => exact .record casing (h.imp fun _ _ => Field.Rel.mono hR)
  | list h => exact .list (hR _ _ h)
  | map hkey hvalue => exact .map (hR _ _ hkey) (hR _ _ hvalue)
  | pointer optional h => exact .pointer optional (hR _ _ h)
  | enumeration h => exact .enumeration (h.imp fun _ _ => Variant.Rel.mono hR)
  | dynamic => exact .dynamic
  | unsupported h => exact .unsupported (hQ _ _ h)

/-- Descriptors whose references are related closely are related loosely. -/
theorem Descriptor.Rel.mono (hR : ∀ t u, R t u → R' t u) {d : Descriptor σ} {d' : Descriptor τ}
    (h : d.Rel Q R d') : d.Rel Q R' d' := by
  cases h with
  | intro identity description h => exact .intro identity description (h.mono (fun _ _ => id) hR)

/-- Of the reasons nothing is asked where there is a schema. -/
theorem Shape.Rel.of_supported {shape : Shape σ} {shape' : Shape τ} (h : shape.Rel Q R shape')
    (hsupported : ∀ reason, shape ≠ .unsupported reason) : shape.Rel Q' R shape' := by
  cases h with
  | scalar s => exact .scalar s
  | record casing h => exact .record casing h
  | list h => exact .list h
  | map hkey hvalue => exact .map hkey hvalue
  | pointer optional h => exact .pointer optional h
  | enumeration h => exact .enumeration h
  | dynamic => exact .dynamic
  | unsupported _ => exact absurd rfl (hsupported _)

/-! ## One relation after another -/

section

open Relation (Comp)

variable {υ : Type} {S : τ → υ → Prop}

/-- Lists that are related to the same one, place by place, are related by way of it. -/
theorem forall₂_comp {α β γ : Type} {R : α → β → Prop} {S : β → γ → Prop} {as : List α} {bs : List β}
    {cs : List γ} (h : List.Forall₂ R as bs) (h' : List.Forall₂ S bs cs) : List.Forall₂ (Comp R S) as cs := by
  induction h generalizing cs with
  | nil =>
      cases h'
      exact .nil
  | cons hab _ ih =>
      cases h' with
      | cons hbc hrest => exact .cons ⟨_, hab, hbc⟩ (ih hrest)

/-- Fields that are related to the same one are related by way of it. -/
theorem Field.Rel.comp {field : Field σ} {field' : Field τ} {field'' : Field υ} (h : field.Rel R field')
    (h' : field'.Rel S field'') : field.Rel (Comp R S) field'' := by
  cases h with
  | intro name metadata optional h =>
      cases h' with
      | intro _ _ _ h' => exact .intro name metadata optional ⟨_, h, h'⟩

/-- Variants that are related to the same one are related by way of it. -/
theorem Variant.Rel.comp {v : Variant σ} {v' : Variant τ} {v'' : Variant υ} (h : v.Rel R v')
    (h' : v'.Rel S v'') : v.Rel (Comp R S) v'' := by
  cases h with
  | intro name h =>
      cases h' with
      | intro _ h' =>
          refine .intro name ?_
          cases h with
          | none =>
              cases h'
              exact .none
          | some h =>
              cases h' with
              | some h' => exact .some ⟨_, h, h'⟩

/-- Shapes of which the first differs from a third one, and this from the second, in references and reasons at
most. -/
theorem Shape.Rel.comp {shape : Shape σ} {shape' : Shape τ} {shape'' : Shape υ} (h : shape.Rel Q R shape')
    (h' : shape'.Rel Q' S shape'') : shape.Rel (Comp Q Q') (Comp R S) shape'' := by
  -- The shape in the middle has one constructor, and it decides both of the others.
  cases h with
  | scalar s =>
      cases h'
      exact .scalar s
  | record casing h =>
      cases h' with
      | record _ h' =>
          exact .record casing ((forall₂_comp h h').imp fun _ _ ⟨_, hfield, hfield'⟩ => hfield.comp hfield')
  | list h =>
      cases h' with
      | list h' => exact .list ⟨_, h, h'⟩
  | map hkey hvalue =>
      cases h' with
      | map hkey' hvalue' => exact .map ⟨_, hkey, hkey'⟩ ⟨_, hvalue, hvalue'⟩
  | pointer optional h =>
      cases h' with
      | pointer _ h' => exact .pointer optional ⟨_, h, h'⟩
  | enumeration h =>
      cases h' with
      | enumeration h' =>
          exact .enumeration ((forall₂_comp h h').imp fun _ _ ⟨_, hvariant, hvariant'⟩ => hvariant.comp hvariant')
  | dynamic =>
      cases h'
      exact .dynamic
  | unsupported h =>
      cases h' with
      | unsupported h' => exact .unsupported ⟨_, h, h'⟩

end

/-! ## What related shapes lead to -/

/-- The types of related fields are related. -/
theorem Field.Rel.type {field : Field σ} {field' : Field τ} (h : field.Rel R field') :
    R field.type field'.type := by
  cases h with
  | intro name metadata optional h => exact h

/-- Fields are kept by their metadata, so the same ones are kept on both sides. -/
theorem Field.Rel.filter {fields : List (Field σ)} {fields' : List (Field τ)}
    (h : List.Forall₂ (Field.Rel R) fields fields') :
    List.Forall₂ (Field.Rel R) (fields.filter fun field => !field.metadata.ignore)
      (fields'.filter fun field => !field.metadata.ignore) := by
  induction h with
  | nil => exact .nil
  | @cons field field' fields fields' hfield _ ih =>
      cases hfield with
      | intro name metadata optional h =>
          rw [List.filter_cons, List.filter_cons]
          dsimp only
          split
          · exact .cons (.intro name metadata optional h) ih
          · exact ih

/-- Related variants have related payloads, in the same places. -/
theorem Variant.Rel.payloads {variants : List (Variant σ)} {variants' : List (Variant τ)}
    (h : List.Forall₂ (Variant.Rel R) variants variants') :
    List.Forall₂ R (variants.filterMap (·.payload)) (variants'.filterMap (·.payload)) := by
  induction h with
  | nil => exact .nil
  | @cons v v' variants variants' hv _ ih =>
      cases hv with
      | intro name h =>
          rw [List.filterMap_cons, List.filterMap_cons]
          cases h with
          | none => exact ih
          | some h => exact .cons h ih

/-- Related shapes ask for related parts, in the same order. -/
theorem Shape.Rel.parts {shape : Shape σ} {shape' : Shape τ} (h : shape.Rel Q R shape') :
    List.Forall₂ R shape.parts shape'.parts := by
  cases h with
  | record casing h =>
      simp only [Shape.parts, List.forall₂_map_left_iff, List.forall₂_map_right_iff]
      exact (Field.Rel.filter h).imp fun _ _ => Field.Rel.type
  | list h => exact .cons h .nil
  | map hkey hvalue => exact .cons hvalue .nil
  | pointer optional h => exact .cons h .nil
  | enumeration h => exact Variant.Rel.payloads h
  | _ => exact .nil

/-- Related shapes mention related references, in the same order. -/
theorem Shape.Rel.mentions {shape : Shape σ} {shape' : Shape τ} (h : shape.Rel Q R shape') :
    List.Forall₂ R shape.mentions shape'.mentions := by
  have hparts := h.parts
  cases h with
  | map hkey hvalue => exact .cons hkey hparts
  | _ => exact hparts

/-! ## What is assembled for related shapes -/

/-- Of related variants, both or none are without a payload. -/
theorem Variant.Rel.isNone_iff {v : Variant σ} {v' : Variant τ} (h : v.Rel R v') :
    v.payload.isNone ↔ v'.payload.isNone := by
  cases h with
  | intro name hpayload => cases hpayload <;> rfl

/-- Of related variants, both or none have a payload. -/
theorem Variant.Rel.isSome_iff {v : Variant σ} {v' : Variant τ} (h : v.Rel R v') :
    v.payload.isSome ↔ v'.payload.isSome := by
  cases h with
  | intro name hpayload => cases hpayload <;> rfl

/-- Related variants have the same names. -/
theorem Variant.Rel.names_eq {variants : List (Variant σ)} {variants' : List (Variant τ)}
    (h : List.Forall₂ (Variant.Rel R) variants variants') : variants.map (·.name) = variants'.map (·.name) := by
  induction h with
  | nil => rfl
  | cons hv _ ih =>
      cases hv with
      | intro name _ => rw [List.map_cons, List.map_cons, ih]

/-- Related enumerations have payloads both, or neither has one. -/
theorem Variant.Rel.all_isNone_eq {variants : List (Variant σ)} {variants' : List (Variant τ)}
    (h : List.Forall₂ (Variant.Rel R) variants variants') :
    variants.all (·.payload.isNone) = variants'.all (·.payload.isNone) := by
  induction h with
  | nil => rfl
  | cons hv _ ih => rw [List.all_cons, List.all_cons, Bool.eq_iff_iff.2 hv.isNone_iff, ih]

namespace Compile

variable {ρ ρ' : Type} {R : TypeRef ρ → TypeRef ρ' → Prop} {policy : RequiredPolicy}

/-- For the members of a record the types of its fields do not count, given the answers. -/
theorem assembleMembers_eq_of_rel {fields : List (Field (TypeRef ρ))} {fields' : List (Field (TypeRef ρ'))}
    (h : List.Forall₂ (Field.Rel R) fields fields') (casing : Option Casing) (answers : List Schema)
    (members : Members) :
    assembleMembers policy casing fields answers members =
      assembleMembers policy casing fields' answers members := by
  induction h generalizing answers members with
  | nil => rfl
  | @cons field field' fields fields' hfield _ ih =>
      -- Related fields differ in their types only, which the members never look at.
      cases hfield with
      | intro name metadata optional _ =>
          cases answers with
          | nil => rfl
          | cons s answers =>
              unfold assembleMembers at ih ⊢
              rw [List.zip_cons_cons, List.zip_cons_cons, List.foldl_cons, List.foldl_cons, ih]
              rfl

/-- For the properties of an enumeration the payloads do not count, given the answers. -/
theorem assembleProperties_eq_of_rel {variants : List (Variant (TypeRef ρ))}
    {variants' : List (Variant (TypeRef ρ'))} (h : List.Forall₂ (Variant.Rel R) variants variants')
    (answers : List Schema) (properties : Dictionary Schema) :
    assembleProperties variants answers properties = assembleProperties variants' answers properties := by
  induction h generalizing answers properties with
  | nil => rfl
  | @cons v v' variants variants' hv _ ih =>
      cases hv with
      | intro name _ =>
          cases answers with
          | nil => rfl
          | cons s answers =>
              unfold assembleProperties at ih ⊢
              rw [List.zip_cons_cons, List.zip_cons_cons, List.foldl_cons, List.foldl_cons, ih]

/-- In what is assembled an identity is shown only if it is that of a key that is no text. -/
theorem assemble_eq_of_rel {shape : Shape (TypeRef ρ)} {shape' : Shape (TypeRef ρ')}
    (h : shape.Rel Eq R shape') (isKey : Bool)
    (hkey : isKey = false → ∀ t u, R t u → t.identity = u.identity) (answers : List Schema) :
    assemble policy isKey shape answers = assemble policy isKey shape' answers := by
  cases h with
  | record casing h => simp only [assemble, assembleMembers_eq_of_rel (Field.Rel.filter h)]
  | map hrel _ =>
      cases isKey with
      | true => rfl
      | false => simp only [assemble, hkey rfl _ _ hrel]
  | enumeration h =>
      -- variants are chosen by whether they have a payload, so the same ones on both sides
      have hunit := List.rel_filter (p := (·.payload.isNone)) (q := (·.payload.isNone))
        (fun _ _ hv => hv.isNone_iff) h
      have hpayload := List.rel_filter (p := (·.payload.isSome)) (q := (·.payload.isSome))
        (fun _ _ hv => hv.isSome_iff) h
      simp only [assemble, Variant.Rel.all_isNone_eq h, Variant.Rel.names_eq h, Variant.Rel.names_eq hunit,
        assembleProperties_eq_of_rel hpayload]
  | unsupported h =>
      rw [h]
      rfl
  | _ => rfl

end Compile

end PayloadSchema
