import PayloadSchema.Proofs.Live.Recognition

/-!
# Comparing source files

Whether two source files are the same is decided item by item: the trees of imports, the types of fields and
the items in blocks are compared by recursion.
-/

namespace PayloadSchema.Source

/-! ## Imports -/

mutual
/-- Whether two import trees are the same. -/
def UseTree.same : UseTree → UseTree → Bool
  | .path name rest, .path name' rest' => name == name' && rest.same rest'
  | .name name, .name name' => name == name'
  | .rename name newName, .rename name' newName' => name == name' && newName == newName'
  | .glob, .glob => true
  | .group trees, .group trees' => sameTrees trees trees'
  | _, _ => false
/-- Whether two lists of import trees are the same. -/
def sameTrees : List UseTree → List UseTree → Bool
  | [], [] => true
  | tree :: trees, tree' :: trees' => tree.same tree' && sameTrees trees trees'
  | _, _ => false
end

mutual
/-- Use trees are compared for equality. -/
theorem UseTree.same_iff : ∀ tree tree' : UseTree, tree.same tree' = true ↔ tree = tree'
  | .path name rest, tree' => by
      cases tree' with
      | path name' rest' => simp [UseTree.same, UseTree.same_iff rest rest']
      | _ => simp [UseTree.same]
  | .name name, tree' => by
      cases tree' <;> simp [UseTree.same]
  | .rename name newName, tree' => by
      cases tree' <;> simp [UseTree.same]
  | .glob, tree' => by
      cases tree' <;> simp [UseTree.same]
  | .group trees, tree' => by
      cases tree' with
      | group trees' => simp [UseTree.same, sameTrees_iff trees trees']
      | _ => simp [UseTree.same]
/-- Lists of use trees are compared for equality. -/
theorem sameTrees_iff : ∀ trees trees' : List UseTree, sameTrees trees trees' = true ↔ trees = trees'
  | [], trees' => by
      cases trees' <;> simp [sameTrees]
  | tree :: trees, trees' => by
      cases trees' with
      | nil => simp [sameTrees]
      | cons tree' trees' => simp [sameTrees, UseTree.same_iff tree tree', sameTrees_iff trees trees']
end

instance : DecidableEq UseTree := fun tree tree' => decidable_of_iff _ (UseTree.same_iff tree tree')

/-! ## Types -/

mutual
/-- Whether two types are the same. -/
def TypeExpr.same : TypeExpr → TypeExpr → Bool
  | .path qualified ⟨leading, segments⟩, .path qualified' ⟨leading', segments'⟩ =>
    qualified == qualified' && leading == leading' && sameSegments segments segments'
  | .reference target, .reference target' => target.same target'
  | .pointer target, .pointer target' => target.same target'
  | .slice element, .slice element' => element.same element'
  | .array element, .array element' => element.same element'
  | .parenthesized inner, .parenthesized inner' => inner.same inner'
  | .tuple elements, .tuple elements' => sameTypes elements elements'
  | .function inputs, .function inputs' => sameTypes inputs inputs'
  | .traitObject none, .traitObject none => true
  | .traitObject (some ⟨leading, segments⟩), .traitObject (some ⟨leading', segments'⟩) =>
    leading == leading' && sameSegments segments segments'
  | .implTrait, .implTrait => true
  | .never, .never => true
  | .inferred, .inferred => true
  | .macroCall, .macroCall => true
  | .other, .other => true
  | _, _ => false
/-- Whether the segments of two paths are the same. -/
def sameSegments : List (Segment TypeExpr) → List (Segment TypeExpr) → Bool
  | [], [] => true
  | ⟨name, style, types⟩ :: segments, ⟨name', style', types'⟩ :: segments' =>
    name == name' && style == style' && sameTypes types types' && sameSegments segments segments'
  | _, _ => false
/-- Whether two lists of types are the same. -/
def sameTypes : List TypeExpr → List TypeExpr → Bool
  | [], [] => true
  | type :: types, type' :: types' => type.same type' && sameTypes types types'
  | _, _ => false
end

-- One case for each form of the first type; a type of any other form is not the same.
mutual
/-- Types are compared for equality. -/
theorem TypeExpr.same_iff : ∀ type type' : TypeExpr, type.same type' = true ↔ type = type'
  | .path qualified ⟨leading, segments⟩, type' => by
      cases type' with
      | path qualified' path =>
          obtain ⟨leading', segments'⟩ := path
          simp [TypeExpr.same, sameSegments_iff segments segments', and_assoc]
      | _ => simp [TypeExpr.same]
  -- Wrappers compare their targets; every other constructor is refuted.
  | .reference target, type' => by
      cases type' with
      | reference target' => simp [TypeExpr.same, TypeExpr.same_iff target target']
      | _ => simp [TypeExpr.same]
  | .pointer target, type' => by
      cases type' with
      | pointer target' => simp [TypeExpr.same, TypeExpr.same_iff target target']
      | _ => simp [TypeExpr.same]
  | .slice element, type' => by
      cases type' with
      | slice element' => simp [TypeExpr.same, TypeExpr.same_iff element element']
      | _ => simp [TypeExpr.same]
  | .array element, type' => by
      cases type' with
      | array element' => simp [TypeExpr.same, TypeExpr.same_iff element element']
      | _ => simp [TypeExpr.same]
  | .parenthesized inner, type' => by
      cases type' with
      | parenthesized inner' => simp [TypeExpr.same, TypeExpr.same_iff inner inner']
      | _ => simp [TypeExpr.same]
  | .tuple elements, type' => by
      cases type' with
      | tuple elements' => simp [TypeExpr.same, sameTypes_iff elements elements']
      | _ => simp [TypeExpr.same]
  | .function inputs, type' => by
      cases type' with
      | function inputs' => simp [TypeExpr.same, sameTypes_iff inputs inputs']
      | _ => simp [TypeExpr.same]
  | .traitObject none, type' => by
      cases type' with
      | traitObject principal => cases principal <;> simp [TypeExpr.same]
      | _ => simp [TypeExpr.same]
  | .traitObject (some ⟨leading, segments⟩), type' => by
      cases type' with
      | traitObject principal =>
          rcases principal with _ | ⟨leading', segments'⟩
          · simp [TypeExpr.same]
          · simp [TypeExpr.same, sameSegments_iff segments segments']
      | _ => simp [TypeExpr.same]
  | .implTrait, type' => by
      cases type' <;> simp [TypeExpr.same]
  | .never, type' => by
      cases type' <;> simp [TypeExpr.same]
  | .inferred, type' => by
      cases type' <;> simp [TypeExpr.same]
  | .macroCall, type' => by
      cases type' <;> simp [TypeExpr.same]
  | .other, type' => by
      cases type' <;> simp [TypeExpr.same]
/-- The segments of paths are compared for equality. -/
theorem sameSegments_iff : ∀ segments segments' : List (Segment TypeExpr),
    sameSegments segments segments' = true ↔ segments = segments'
  | [], segments' => by
      cases segments' <;> simp [sameSegments]
  | ⟨name, style, types⟩ :: segments, segments' => by
      cases segments' with
      | nil => simp [sameSegments]
      | cons segment' segments' =>
          obtain ⟨name', style', types'⟩ := segment'
          simp [sameSegments, sameTypes_iff types types', sameSegments_iff segments segments', and_assoc]
/-- Lists of types are compared for equality. -/
theorem sameTypes_iff : ∀ types types' : List TypeExpr, sameTypes types types' = true ↔ types = types'
  | [], types' => by
      cases types' <;> simp [sameTypes]
  | type :: types, types' => by
      cases types' with
      | nil => simp [sameTypes]
      | cons type' types' => simp [sameTypes, TypeExpr.same_iff type type', sameTypes_iff types types']
end

instance : DecidableEq TypeExpr := fun type type' => decidable_of_iff _ (TypeExpr.same_iff type type')

/-! ## Items -/

deriving instance DecidableEq for FieldDecl
deriving instance DecidableEq for Fields
deriving instance DecidableEq for VariantDecl
deriving instance DecidableEq for StructDecl
deriving instance DecidableEq for EnumDecl
deriving instance DecidableEq for AliasDecl

mutual
/-- Whether two items are the same. -/
def Item.same : Item → Item → Bool
  | .struct decl, .struct decl' => decl == decl'
  | .enum decl, .enum decl' => decl == decl'
  | .typeAlias decl, .typeAlias decl' => decl == decl'
  | .use tree, .use tree' => tree == tree'
  | .module name, .module name' => name == name'
  | .value inner, .value inner' => sameItems inner inner'
  | .closed, .closed => true
  | _, _ => false
/-- Whether two lists of items are the same. -/
def sameItems : List Item → List Item → Bool
  | [], [] => true
  | item :: items, item' :: items' => item.same item' && sameItems items items'
  | _, _ => false
end

mutual
/-- Items are compared for equality. -/
theorem Item.same_iff : ∀ item item' : Item, item.same item' = true ↔ item = item'
  | .struct decl, item' => by
      cases item' <;> simp [Item.same]
  | .enum decl, item' => by
      cases item' <;> simp [Item.same]
  | .typeAlias decl, item' => by
      cases item' <;> simp [Item.same]
  | .use tree, item' => by
      cases item' <;> simp [Item.same]
  | .module name, item' => by
      cases item' <;> simp [Item.same]
  | .value inner, item' => by
      cases item' with
      | value inner' => simp [Item.same, sameItems_iff inner inner']
      | _ => simp [Item.same]
  | .closed, item' => by
      cases item' <;> simp [Item.same]
/-- Lists of items are compared for equality. -/
theorem sameItems_iff : ∀ items items' : List Item, sameItems items items' = true ↔ items = items'
  | [], items' => by
      cases items' <;> simp [sameItems]
  | item :: items, items' => by
      cases items' with
      | nil => simp [sameItems]
      | cons item' items' => simp [sameItems, Item.same_iff item item', sameItems_iff items items']
end

instance : DecidableEq Item := fun item item' => decidable_of_iff _ (Item.same_iff item item')

deriving instance DecidableEq for SourceFile

end PayloadSchema.Source
