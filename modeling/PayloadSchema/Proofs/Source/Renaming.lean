import PayloadSchema.Resolve.Scope

/-!
# Renaming in source files

A name that an import binds stands at the beginning of the paths that use it. Renaming replaces it there, in
a type and in everything inside it, and leaves the names of declarations, modules and imports as they are.

* `TypeExpr.rename`, `Item.rename` — a type and an item with the first names of paths replaced;
* `TypeExpr.paths` — the paths in a type that are asked for a meaning;
* `surfaceAll_rename`, `find?_rename` — renaming goes through the surface and the top level of a file.
-/

namespace PayloadSchema.Source

/-! ## Types -/

/-- The names of a path with the first one replaced. -/
def renameHead (f : String → String) : List String → List String
  | [] => []
  | name :: names => f name :: names

mutual
/-- A type with the first name of each path in it replaced. -/
def TypeExpr.rename (f : String → String) : TypeExpr → TypeExpr
  | .path qualified ⟨leading, segments⟩ => .path qualified ⟨leading, renameSegments f segments⟩
  | .reference target => .reference (target.rename f)
  | .pointer target => .pointer (target.rename f)
  | .slice element => .slice (element.rename f)
  | .array element => .array (element.rename f)
  | .parenthesized inner => .parenthesized (inner.rename f)
  | .tuple elements => .tuple (renameAll f elements)
  | .function inputs => .function (renameAll f inputs)
  | .traitObject none => .traitObject none
  | .traitObject (some ⟨leading, segments⟩) => .traitObject (some ⟨leading, renameSegments f segments⟩)
  | .implTrait => .implTrait
  | .never => .never
  | .inferred => .inferred
  | .macroCall => .macroCall
  | .other => .other
/-- The segments of a path with the first name replaced, and those in the arguments of all segments. -/
def renameSegments (f : String → String) : List (Segment TypeExpr) → List (Segment TypeExpr)
  | [] => []
  | ⟨name, style, types⟩ :: segments => ⟨f name, style, renameAll f types⟩ :: renameArguments f segments
/-- The segments of a path with the first names in their arguments replaced. -/
def renameArguments (f : String → String) : List (Segment TypeExpr) → List (Segment TypeExpr)
  | [] => []
  | ⟨name, style, types⟩ :: segments => ⟨name, style, renameAll f types⟩ :: renameArguments f segments
/-- Types with the first name of each path in them replaced. -/
def renameAll (f : String → String) : List TypeExpr → List TypeExpr
  | [] => []
  | type :: types => type.rename f :: renameAll f types
end

-- With the same name in the place of each name nothing is replaced; one case for each form of a type.
mutual
/-- A type is the same if no name is changed. -/
theorem TypeExpr.rename_id : ∀ type : TypeExpr, type.rename id = type
  | .path _ ⟨_, segments⟩ => by rw [TypeExpr.rename, renameSegments_id segments]
  | .reference target => by rw [TypeExpr.rename, TypeExpr.rename_id target]
  | .pointer target => by rw [TypeExpr.rename, TypeExpr.rename_id target]
  | .slice element => by rw [TypeExpr.rename, TypeExpr.rename_id element]
  | .array element => by rw [TypeExpr.rename, TypeExpr.rename_id element]
  | .parenthesized inner => by rw [TypeExpr.rename, TypeExpr.rename_id inner]
  | .tuple elements => by rw [TypeExpr.rename, renameAll_id elements]
  | .function inputs => by rw [TypeExpr.rename, renameAll_id inputs]
  | .traitObject none => by rw [TypeExpr.rename]
  | .traitObject (some ⟨_, segments⟩) => by rw [TypeExpr.rename, renameSegments_id segments]
  | .implTrait => by rw [TypeExpr.rename]
  | .never => by rw [TypeExpr.rename]
  | .inferred => by rw [TypeExpr.rename]
  | .macroCall => by rw [TypeExpr.rename]
  | .other => by rw [TypeExpr.rename]
theorem renameSegments_id : ∀ segments : List (Segment TypeExpr), renameSegments id segments = segments
  | [] => by rw [renameSegments]
  | segment :: segments => by
      cases segment with
      | mk name style types =>
          rw [renameSegments, renameAll_id types, renameArguments_id segments, id]
theorem renameArguments_id : ∀ segments : List (Segment TypeExpr), renameArguments id segments = segments
  | [] => by rw [renameArguments]
  | segment :: segments => by
      cases segment with
      | mk name style types =>
          rw [renameArguments, renameAll_id types, renameArguments_id segments]
theorem renameAll_id : ∀ types : List TypeExpr, renameAll id types = types
  | [] => by rw [renameAll]
  | type :: types => by rw [renameAll, TypeExpr.rename_id type, renameAll_id types]
end

variable (f : String → String)

theorem renameHead_id (names : List String) : renameHead id names = names := by
  cases names <;> rfl

/-- Only what stands in the arguments of segments is renamed here, not the segments. -/
theorem map_name_renameArguments (segments : List (Segment TypeExpr)) :
    (renameArguments f segments).map (·.name) = segments.map (·.name) := by
  induction segments with
  | nil => rw [renameArguments]
  | cons segment segments ih =>
      obtain ⟨name, style, types⟩ := segment
      rw [renameArguments, List.map_cons, List.map_cons, ih]

/-- The first name of a path is replaced, and no other one. -/
theorem map_name_renameSegments (segments : List (Segment TypeExpr)) :
    (renameSegments f segments).map (·.name) = renameHead f (segments.map (·.name)) := by
  cases segments with
  | nil =>
      rw [renameSegments]
      rfl
  | cons segment segments =>
      obtain ⟨name, style, types⟩ := segment
      rw [renameSegments, List.map_cons, List.map_cons, map_name_renameArguments]
      rfl

mutual
/-- The names of the paths in a type that are asked for a meaning: paths that are not qualified, the arguments
of their last segments, and what is inside references, slices and parentheses. -/
def TypeExpr.paths : TypeExpr → List (List String)
  | .path false ⟨_, segments⟩ => segments.map (·.name) :: pathsLast segments
  | .path true _ => []
  | .reference target => target.paths
  | .pointer target => target.paths
  | .slice element => element.paths
  | .array element => element.paths
  | .parenthesized inner => inner.paths
  | .tuple _ => []
  | .function _ => []
  | .traitObject _ => []
  | .implTrait => []
  | .never => []
  | .inferred => []
  | .macroCall => []
  | .other => []
/-- The same for the arguments of the last segment of a path. -/
def pathsLast : List (Segment TypeExpr) → List (List String)
  | [] => []
  | [⟨_, _, types⟩] => pathsAll types
  | _ :: segment :: segments => pathsLast (segment :: segments)
def pathsAll : List TypeExpr → List (List String)
  | [] => []
  | type :: types => type.paths ++ pathsAll types
end

/-! ## Items -/

/-- A field with its type renamed. -/
def FieldDecl.rename (d : FieldDecl) : FieldDecl := { d with type := d.type.rename f }

/-- Fields with their types renamed. -/
def Fields.rename : Fields → Fields
  | .named fields => .named (fields.map (FieldDecl.rename f))
  | .positional fields => .positional (fields.map (FieldDecl.rename f))
  | .unit => .unit

/-- A variant with the types of its fields renamed. -/
def VariantDecl.rename (d : VariantDecl) : VariantDecl := { d with fields := d.fields.rename f }

mutual
/-- An item with the types of declarations renamed. -/
def Item.rename : Item → Item
  | .struct d => .struct { d with fields := d.fields.rename f }
  | .enum d => .enum { d with variants := d.variants.map (VariantDecl.rename f) }
  | .typeAlias d => .typeAlias { d with type := d.type.rename f }
  | .value inner => .value (renameItems inner)
  | .use tree => .use tree
  | .module name => .module name
  | .closed => .closed
/-- Items with the types of declarations renamed. -/
def renameItems : List Item → List Item
  | [] => []
  | item :: items => item.rename :: renameItems items
end

/-- The types that a declaration is made of. -/
def Item.types : Item → List TypeExpr
  | .struct d => d.fields.toList.map (·.type)
  | .enum d => d.variants.flatMap fun variant => variant.fields.toList.map (·.type)
  | .typeAlias d => [d.type]
  | _ => []

/-- The type parameters of a declaration. -/
def Item.parameters : Item → List String
  | .struct d => d.parameters
  | .enum d => d.parameters
  | .typeAlias d => d.parameters
  | _ => []

/-- Fields are the same if no name is changed. -/
theorem Fields.rename_id (fields : Fields) : fields.rename id = fields := by
  have hfield : FieldDecl.rename id = id := by
    funext d
    rw [FieldDecl.rename, TypeExpr.rename_id]
    rfl
  cases fields <;> simp [rename, hfield]

mutual
/-- An item is the same if no name is changed. -/
theorem Item.rename_id : ∀ item : Item, item.rename id = item
  | .struct d => by rw [Item.rename, Fields.rename_id]
  | .enum d => by
      have hvariant : VariantDecl.rename id = id := by
        funext d
        rw [VariantDecl.rename, Fields.rename_id]
        rfl
      rw [Item.rename, hvariant, List.map_id]
  | .typeAlias d => by rw [Item.rename, TypeExpr.rename_id]
  | .value inner => by rw [Item.rename, renameItems_id inner]
  | .use _ => by rw [Item.rename]
  | .module _ => by rw [Item.rename]
  | .closed => by rw [Item.rename]
theorem renameItems_id : ∀ items : List Item, renameItems id items = items
  | [] => by rw [renameItems]
  | item :: items => by rw [renameItems, Item.rename_id item, renameItems_id items]
end

/-- Items are renamed one by one. -/
theorem renameItems_eq_map (items : List Item) : renameItems f items = items.map (Item.rename f) := by
  induction items with
  | nil => rw [renameItems, List.map_nil]
  | cons item items ih => rw [renameItems, ih, List.map_cons]

@[simp] theorem Item.declared?_rename (item : Item) : (item.rename f).declared? = item.declared? := by
  cases item <;> rfl

mutual
/-- What an item shows at the surface of its file is renamed with it. -/
theorem Item.surface_rename : ∀ item : Item, (item.rename f).surface = item.surface.map (Item.rename f)
  | .value inner => by
      rw [Item.rename, Item.surface, Item.surface]
      exact surfaceAll_renameItems inner
  | .struct _ => rfl
  | .enum _ => rfl
  | .typeAlias _ => rfl
  | .use _ => rfl
  | .module _ => rfl
  | .closed => rfl
/-- What items show at the surface of their file is renamed with them. -/
theorem surfaceAll_renameItems : ∀ items : List Item,
    surfaceAll (renameItems f items) = (surfaceAll items).map (Item.rename f)
  | [] => by
      rw [renameItems, surfaceAll]
      rfl
  | item :: items => by
      rw [renameItems, surfaceAll, surfaceAll, List.map_append, Item.surface_rename item,
        surfaceAll_renameItems items]
end

/-- Items show what each of them does. -/
theorem surfaceAll_append (items items' : List Item) :
    surfaceAll (items ++ items') = surfaceAll items ++ surfaceAll items' := by
  induction items with
  | nil => rfl
  | cons item items ih => rw [List.cons_append, surfaceAll, surfaceAll, ih, List.append_assoc]

/-- The surface of renamed items is the renamed surface. -/
theorem surfaceAll_rename (items : List Item) :
    surfaceAll (items.map (Item.rename f)) = (surfaceAll items).map (Item.rename f) := by
  rw [← renameItems_eq_map, surfaceAll_renameItems]

/-- Renamed items import the same. -/
theorem importsOf_rename (items : List Item) : importsOf (items.map (Item.rename f)) = importsOf items := by
  unfold importsOf
  rw [List.filterMap_map]
  congr 1
  funext item
  cases item <;> rfl

/-- Renamed items have the same inner modules. -/
theorem modulesOf_rename (items : List Item) : modulesOf (items.map (Item.rename f)) = modulesOf items := by
  unfold modulesOf
  rw [List.filterMap_map]
  congr 1
  funext item
  cases item <;> rfl

/-- Renamed items declare the same names. -/
theorem filterMap_declared?_rename (items : List Item) :
    (items.map (Item.rename f)).filterMap (·.declared?) = items.filterMap (·.declared?) := by
  rw [List.filterMap_map]
  congr 1
  funext item
  exact item.declared?_rename f

end PayloadSchema.Source
