import PayloadSchema.Schema.Basic

/-!
# Properties at every depth

A schema is a tree: inside it are the schemas of its properties, of its elements, and of the values under
free keys. A property of schemas holds everywhere in a tree if it holds of the schema and of all that are
inside (`Schema.Everywhere`), and somewhere if it holds of one of them (`Schema.Somewhere`).

* `Schema.iff_everywhere` — what is handed on from each schema to those right inside holds at every depth;
* `Schema.wellFormed_iff_everywhere` — the check for well-formed containers says that their shape is right
  everywhere in the tree.
-/

namespace PayloadSchema.Schema

/-- The schemas right inside a schema: those of its properties, of its elements, and of the values under
free keys. -/
def children (s : Schema) : List Schema :=
  (s.properties.getD []).map (·.2) ++ s.items.toList ++ s.additional.toList

/-- A property of schemas holds of a schema and of all schemas inside, at every depth. -/
inductive Everywhere (P : Schema → Prop) : Schema → Prop where
  | intro {s : Schema} (here : P s) (inside : ∀ t ∈ s.children, Everywhere P t) : Everywhere P s

/-- A property of schemas holds of a schema or of one that is inside, at some depth. -/
inductive Somewhere (P : Schema → Prop) : Schema → Prop where
  | here {s : Schema} (h : P s) : Somewhere P s
  | inside {s t : Schema} (ht : t ∈ s.children) (h : Somewhere P t) : Somewhere P s

theorem Somewhere.mono {P P' : Schema → Prop} (hP : ∀ s, P s → P' s) {s : Schema} (h : Somewhere P s) :
    Somewhere P' s := by
  induction h with
  | here h => exact .here (hP _ h)
  | inside ht _ ih => exact .inside ht ih

namespace Everywhere

variable {P : Schema → Prop} {s : Schema}

theorem here (h : Everywhere P s) : P s := by
  cases h with
  | intro hhere _ => exact hhere

theorem inside (h : Everywhere P s) : ∀ t ∈ s.children, Everywhere P t := by
  cases h with
  | intro _ hinside => exact hinside

theorem mono {P' : Schema → Prop} (hP : ∀ s, P s → P' s) (h : Everywhere P s) : Everywhere P' s := by
  induction h with
  | intro hhere _ ih => exact .intro (hP _ hhere) ih

end Everywhere

/-- The schemas right inside are those of the properties, of the items and of further members. -/
theorem mem_children_iff {s t : Schema} : t ∈ s.children ↔
    (∃ e ∈ s.properties.getD [], e.2 = t) ∨ s.items = some t ∨ s.additional = some t := by
  simp [children]

/-- What holds of the schemas right inside holds of each part that is one. -/
theorem forall_mem_children {P : Schema → Prop} {s : Schema} : (∀ t ∈ s.children, P t) ↔
    (∀ e ∈ s.properties.getD [], P e.2) ∧ (∀ t, s.items = some t → P t) ∧
      ∀ t, s.additional = some t → P t := by
  simp only [mem_children_iff]
  constructor
  · intro h
    refine ⟨?_, ?_, ?_⟩
    · intro e he
      exact h e.2 (.inl ⟨e, he, rfl⟩)
    · intro t ht
      exact h t (.inr (.inl ht))
    · intro t ht
      exact h t (.inr (.inr ht))
  · rintro ⟨hproperties, hitems, hadditional⟩ t (⟨e, he, rfl⟩ | ht | ht)
    · exact hproperties e he
    · exact hitems t ht
    · exact hadditional t ht

theorem mem_children_of_mem_properties {s : Schema} {properties : List (String × Schema)}
    (h : s.properties = some properties) {e : String × Schema} (he : e ∈ properties) :
    e.2 ∈ s.children := by
  rw [mem_children_iff, h]
  exact .inl ⟨e, he, rfl⟩

/-- A schema inside another is smaller. -/
theorem sizeOf_lt_of_mem_children {s t : Schema} (h : t ∈ s.children) : sizeOf t < sizeOf s := by
  obtain ⟨kind, properties, required, items, additional⟩ := s
  -- A child stands in the properties, or is the items or the additional schema.
  rcases mem_children_iff.1 h with ⟨⟨name, t⟩, he, rfl⟩ | ht | ht
  · cases properties with
    | none => cases he
    | some entries =>
        have hentry : sizeOf (name, t) < sizeOf entries := List.sizeOf_lt_of_mem he
        simp only [Prod.mk.sizeOf_spec] at hentry
        simp only [mk.sizeOf_spec, Option.some.sizeOf_spec]
        omega
  · cases ht
    simp only [mk.sizeOf_spec, Option.some.sizeOf_spec]
    omega
  · cases ht
    simp only [mk.sizeOf_spec, Option.some.sizeOf_spec]
    omega

/-- What says of a schema that it has a property, and the same of the schemas right inside, says that the
property holds at every depth. -/
theorem iff_everywhere {P Q : Schema → Prop} (h : ∀ s, Q s ↔ P s ∧ ∀ t ∈ s.children, Q t) {s : Schema} :
    Q s ↔ s.Everywhere P := by
  constructor
  · intro hs
    -- the schemas inside are smaller
    induction hsize : sizeOf s using Nat.strongRecOn generalizing s with
    | ind n ih =>
        obtain ⟨hhere, hinside⟩ := (h s).1 hs
        refine .intro hhere ?_
        intro t ht
        have hsmaller : sizeOf t < n := by
          rw [← hsize]
          exact sizeOf_lt_of_mem_children ht
        exact ih (sizeOf t) hsmaller (hinside t ht) rfl
  · intro hs
    induction hs with
    | intro hhere _ ih => exact (h _).2 ⟨hhere, ih⟩

/-! ## The shape of containers -/

/-- The shape of a container: elements only in an array, and free keys only in an object. -/
structure ContainerShape (s : Schema) : Prop where
  items : s.items.isSome = true → s.kind = some .array
  additional : s.additional.isSome = true → s.kind = some .object

/-- No container has both elements and free keys. -/
theorem ContainerShape.not_both {s : Schema} (h : s.ContainerShape) :
    ¬ (s.items.isSome = true ∧ s.additional.isSome = true) := by
  rintro ⟨hitems, hadditional⟩
  have harray := h.items hitems
  have hobject := h.additional hadditional
  rw [harray] at hobject
  cases hobject

/-- Properties are well formed if each of them is. -/
theorem wellFormedEntries_iff {entries : List (String × Schema)} :
    wellFormedEntries entries = true ↔ ∀ e ∈ entries, e.2.wellFormed = true := by
  induction entries with
  | nil => simp [wellFormedEntries]
  | cons e entries ih =>
      obtain ⟨name, s⟩ := e
      simp [wellFormedEntries, ih]

/-- Properties that may be missing are well formed if each that is there is. -/
theorem wellFormedAll_iff {properties : Option (List (String × Schema))} :
    wellFormedAll properties = true ↔ ∀ e ∈ properties.getD [], e.2.wellFormed = true := by
  cases properties with
  | none => simp [wellFormedAll]
  | some entries => exact wellFormedEntries_iff

/-- A schema that may be missing is well formed if it is so when it is there. -/
theorem wellFormedOption_iff {child : Option Schema} :
    wellFormedOption child = true ↔ ∀ s, child = some s → s.wellFormed = true := by
  cases child with
  | none => simp [wellFormedOption]
  | some s => simp [wellFormedOption]

/-- A schema is well-formed if its shape is right and the schemas right inside are well-formed. -/
theorem wellFormed_iff (s : Schema) :
    s.wellFormed = true ↔ s.ContainerShape ∧ ∀ t ∈ s.children, t.wellFormed = true := by
  have hshape : s.ContainerShape ↔
      (s.items.isNone || s.kind == some .array) = true ∧
        (s.additional.isNone || s.kind == some .object) = true := by
    -- A boolean check of an implication, which is used for both containers.
    have hor (present : Bool) (kind : JsonType) :
        (present = true → s.kind = some kind) ↔ (!present || s.kind == some kind) = true := by
      cases present <;> simp
    constructor
    · rintro ⟨hitems, hadditional⟩
      rw [← Option.not_isSome, ← Option.not_isSome]
      exact ⟨(hor _ _).1 hitems, (hor _ _).1 hadditional⟩
    · rintro ⟨hitems, hadditional⟩
      rw [← Option.not_isSome] at hitems hadditional
      exact ⟨(hor _ _).2 hitems, (hor _ _).2 hadditional⟩
  have hinside : (∀ t ∈ s.children, t.wellFormed = true) ↔
      wellFormedAll s.properties = true ∧ wellFormedOption s.items = true ∧
        wellFormedOption s.additional = true := by
    rw [wellFormedAll_iff, wellFormedOption_iff, wellFormedOption_iff]
    exact forall_mem_children
  rw [hshape, hinside]
  cases s
  simp only [wellFormed, Bool.and_eq_true, and_assoc]

/-- A schema is well-formed if and only if the shape of containers is right at every depth. -/
theorem wellFormed_iff_everywhere {s : Schema} :
    s.wellFormed = true ↔ s.Everywhere ContainerShape := iff_everywhere wellFormed_iff

end PayloadSchema.Schema
