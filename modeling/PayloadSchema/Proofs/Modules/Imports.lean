import PayloadSchema.Modules.Imports
import PayloadSchema.Proofs.Dictionary
import PayloadSchema.Proofs.Text.Segments

/-!
# Imports without groups

A tree of imports spreads into its leaves (`UseTree.spread`), each of which could be an import of its own,
without braces. Adding the tree is adding these imports one after the other: what a leaf means has nothing
to do with the leaves around it. So what is imported afterwards can be read off the leaves, from the last
one on.

* `Imports.foldl_addLeaf_eq` — the names and the modules after several leaves;
* `Imports.add_spread` — the same for the leaves of a tree, and for the imports without groups;
* `Imports.find?_rename_eq_none` — one kind of leaf binds nothing although it gives a name.
-/

namespace PayloadSchema

namespace ModulePath

/-- A path climbs above the library of a module. -/
def ClimbsOut (segments : List String) (module : String) : Prop :=
  (Segments.split module).length ≤ (segments.takeWhile (· == "super")).length

instance (segments : List String) (module : String) : Decidable (ClimbsOut segments module) :=
  inferInstanceAs (Decidable (_ ≤ _))

/-- Only a path without segments and one that climbs above the library mean nothing. -/
theorem canonicalize?_eq_none_iff {segments : List String} {module : String} {children : List String} :
    canonicalize? segments module children = none ↔ segments = [] ∨ ClimbsOut segments module := by
  -- the first segment says which paths are read, and only after `super` there may be none
  have hlength : 0 < (Segments.split module).length := by
    unfold Segments.split
    rw [List.length_map]
    exact List.length_pos_iff.2 (Segments.splitChars_ne_nil _)
  have hstays {first : String} {rest : List String} (h : first ≠ "super") :
      ¬ ClimbsOut (first :: rest) module := by
    unfold ClimbsOut
    rw [List.takeWhile_cons_of_neg (by simpa using h), List.length_nil]
    omega
  unfold canonicalize?
  split
  · simp
  · simp [hstays]
  · simp [hstays]
  · next rest =>
    unfold ClimbsOut
    simp
  · next first rest _ _ hsuper =>
    have hne : first ≠ "super" := fun heq => hsuper heq
    by_cases hchild : first ∈ children <;> simp [hstays hne, hchild]

end ModulePath

namespace Source

/-! ## Leaves -/

/-- The end of an import without groups. -/
inductive Ending where
  | name (name : String)
  | rename (name newName : String)
  | glob
deriving DecidableEq

def Ending.tree : Ending → UseTree
  | name n => .name n
  | rename n newName => .rename n newName
  | glob => .glob

/-- A leaf of an import tree, with the names on the way to it. -/
structure Leaf where
  before : List String
  last : Ending
deriving DecidableEq

namespace Leaf

/-- The leaf with one more name on the way to it. -/
def below (name : String) (leaf : Leaf) : Leaf := { leaf with before := name :: leaf.before }

/-- The import of a leaf alone, with its whole path and without braces. -/
def tree (leaf : Leaf) : UseTree := leaf.before.foldr .path leaf.last.tree

/-- The path that a leaf stands for: `self` is the path before it, and a glob stands for the module before
it. -/
def path (leaf : Leaf) : List String :=
  match leaf.last with
  | .name n | .rename n _ => if n = "self" then leaf.before else leaf.before ++ [n]
  | .glob => leaf.before

/-- The name that a leaf gives to its path: its own, for `self` the last one before it, or the one after
`as`, of which `_` is none. -/
def alias? (leaf : Leaf) : Option String :=
  match leaf.last with
  | .name n => if n = "self" then leaf.before.getLast? else some n
  | .rename _ newName => if newName = "_" then none else some newName
  | .glob => none

/-- The name that a leaf binds inside a module, with its path. -/
def entry? (module : String) (children : List String) (leaf : Leaf) : Option (String × String) :=
  leaf.alias?.bind fun name => (ModulePath.canonicalize? leaf.path module children).map (name, ·)

/-- The module of which a leaf imports all names. -/
def glob? (module : String) (children : List String) (leaf : Leaf) : Option String :=
  if leaf.last = .glob then ModulePath.canonicalize? leaf.path module children else none

/-- A leaf that gives no name, or stands for no path, or for one above the library, binds no name. -/
theorem entry?_eq_none_iff {leaf : Leaf} {module : String} {children : List String} :
    leaf.entry? module children = none ↔
      leaf.alias? = none ∨ leaf.path = [] ∨ ModulePath.ClimbsOut leaf.path module := by
  unfold entry?
  cases leaf.alias? with
  | none => simp
  | some name => simp [ModulePath.canonicalize?_eq_none_iff]

end Leaf

mutual
/-- The leaves of an import tree, in order. -/
def UseTree.spread : UseTree → List Leaf
  | .path name rest => rest.spread.map (Leaf.below name)
  | .name name => [⟨[], .name name⟩]
  | .rename name newName => [⟨[], .rename name newName⟩]
  | .glob => [⟨[], .glob⟩]
  | .group trees => spreadAll trees
/-- The leaves of several trees, in order. -/
def spreadAll : List UseTree → List Leaf
  | [] => []
  | tree :: trees => tree.spread ++ spreadAll trees
end

/-! ## Spreading a tree -/

/-- Names on the way to a leaf and names before all of it are the same. -/
theorem Leaf.leavesBelow_tree (leaf : Leaf) (before : List String) :
    leaf.tree.leavesBelow before = leaf.last.tree.leavesBelow (before ++ leaf.before) := by
  obtain ⟨inside, last⟩ := leaf
  unfold tree
  dsimp only
  induction inside generalizing before with
  | nil => rw [List.foldr_nil, List.append_nil]
  | cons name inside ih => rw [List.foldr_cons, UseTree.leavesBelow, ih, List.append_assoc, List.singleton_append]

mutual
theorem leavesBelow_spread (before : List String) : ∀ tree : UseTree,
    tree.leavesBelow before = tree.spread.flatMap fun leaf => leaf.tree.leavesBelow before
  | .path name rest => by
      have hbelow (leaf : Leaf) :
          (leaf.below name).tree.leavesBelow before = leaf.tree.leavesBelow (before ++ [name]) := rfl
      rw [UseTree.leavesBelow, leavesBelow_spread (before ++ [name]) rest, UseTree.spread, List.flatMap_map]
      simp only [hbelow]
  | .name name => by
      rw [UseTree.spread, List.flatMap_singleton]
      rfl
  | .rename name newName => by
      rw [UseTree.spread, List.flatMap_singleton]
      rfl
  | .glob => by
      rw [UseTree.spread, List.flatMap_singleton]
      rfl
  -- A group adds nothing to the path, so its trees start where it stands.
  | .group trees => by
      rw [UseTree.leavesBelow, UseTree.spread]
      exact leavesOfAll_spread before trees
theorem leavesOfAll_spread (before : List String) : ∀ trees : List UseTree,
    leavesOfAll before trees = (spreadAll trees).flatMap fun leaf => leaf.tree.leavesBelow before
  | [] => by
      rw [leavesOfAll, spreadAll, List.flatMap_nil]
  | tree :: trees => by
      rw [leavesOfAll, spreadAll, List.flatMap_append, leavesBelow_spread before tree,
        leavesOfAll_spread before trees]
end

/-- The leaves of a tree are those of its imports without groups. -/
theorem leaves_spread (tree : UseTree) : tree.leaves = tree.spread.flatMap fun leaf => leaf.tree.leaves :=
  leavesBelow_spread [] tree

end Source

namespace Imports

open Source

/-! ## After several leaves -/

/-- The name that is bound by a path under it. -/
def entryOf? (module : String) (children : List String) (leaf : Option String × List String) :
    Option (String × String) :=
  leaf.1.bind fun name => (ModulePath.canonicalize? leaf.2 module children).map (name, ·)

/-- The module for a path without a name. -/
def globOf? (module : String) (children : List String) (leaf : Option String × List String) : Option String :=
  if leaf.1 = none then ModulePath.canonicalize? leaf.2 module children else none

variable {module : String} {children : List String}

/-- Names are put in one after the other, and modules come after those that are there. -/
theorem foldl_addLeaf_eq (imports : Imports) (leaves : List (Option String × List String)) :
    leaves.foldl (addLeaf module children) imports =
      { aliases := imports.aliases.insertAll (leaves.filterMap (entryOf? module children))
        globs := imports.globs ++ leaves.filterMap (globOf? module children) } := by
  induction leaves generalizing imports with
  | nil => rw [List.foldl_nil, List.filterMap_nil, List.filterMap_nil, List.append_nil]; rfl
  | cons leaf leaves ih =>
      obtain ⟨name?, segments⟩ := leaf
      rw [List.foldl_cons, ih, List.filterMap_cons, List.filterMap_cons]
      -- A leaf whose path cannot be written absolutely is dropped by both sides.
      cases hpath : ModulePath.canonicalize? segments module children with
      | none => cases name? <;> simp [addLeaf, entryOf?, globOf?, hpath]
      | some path =>
          cases name? with
          | none => simp [addLeaf, entryOf?, globOf?, hpath]
          | some name =>
              simp only [addLeaf, entryOf?, globOf?, hpath, Option.bind_some, Option.map_some]
              rfl

/-- Of several entries with one key the last one is found. -/
theorem find?_ofList_eq_lookup {α : Type} (entries : List (String × α)) (key : String) :
    (Dictionary.ofList entries).find? key = entries.reverse.lookup key := by
  induction entries using List.reverseRecOn with
  | nil => rfl
  | append_singleton entries e ih =>
      obtain ⟨k, value⟩ := e
      rw [Dictionary.find?_ofList_concat, List.reverse_append, List.reverse_singleton,
        List.singleton_append, List.lookup_cons, ih]
      by_cases hkey : key = k
      · simp [hkey]
      · rw [if_neg hkey, beq_eq_false_iff_ne.2 hkey]

/-- After several leaves a name stands for what the last of them that binds it says, or for what it stood
for before. -/
theorem find?_foldl_addLeaf_eq (imports : Imports) (leaves : List (Option String × List String))
    (name : String) :
    (leaves.foldl (addLeaf module children) imports).find? name =
      ((leaves.filterMap (entryOf? module children)).reverse.lookup name).or (imports.find? name) := by
  rw [foldl_addLeaf_eq, find?, Dictionary.find?_insertAll, find?_ofList_eq_lookup]
  rfl

/-! ## After a tree -/

/-- What a leaf binds is what its import binds. -/
theorem filterMap_leaves_tree (leaf : Leaf) :
    leaf.tree.leaves.filterMap (entryOf? module children) = (leaf.entry? module children).toList ∧
      leaf.tree.leaves.filterMap (globOf? module children) = (leaf.glob? module children).toList := by
  have hleaves : leaf.tree.leaves = leaf.last.tree.leavesBelow leaf.before := leaf.leavesBelow_tree []
  -- one leaf without a group is one path at most, with a name or without
  have hone (name : String) (segments : List String) :
      [(some name, segments)].filterMap (entryOf? module children) =
          ((ModulePath.canonicalize? segments module children).map (name, ·)).toList ∧
        [(some name, segments)].filterMap (globOf? module children) = [] := by
    cases hpath : ModulePath.canonicalize? segments module children <;> simp [entryOf?, globOf?, hpath]
  have hglob (segments : List String) :
      [((none : Option String), segments)].filterMap (entryOf? module children) = [] ∧
        [((none : Option String), segments)].filterMap (globOf? module children) =
          (ModulePath.canonicalize? segments module children).toList := by
    cases hpath : ModulePath.canonicalize? segments module children <;> simp [entryOf?, globOf?, hpath]
  obtain ⟨before, last⟩ := leaf
  rw [hleaves]
  unfold Leaf.entry? Leaf.glob? Leaf.alias? Leaf.path
  cases last with
  | name n =>
      by_cases hself : n = "self"
      · cases hlast : before.getLast? <;> simp [Ending.tree, UseTree.leavesBelow, hself, hlast, hone]
      · simp [Ending.tree, UseTree.leavesBelow, hself, hone]
  | rename n newName =>
      by_cases hblank : newName = "_" <;> simp [Ending.tree, UseTree.leavesBelow, hblank, hone]
  | glob =>
      by_cases hnil : before = []
      · simp [Ending.tree, UseTree.leavesBelow, hnil, ModulePath.canonicalize?]
      · simp [Ending.tree, UseTree.leavesBelow, hnil, hglob]

variable (module children) in
/-- **Imports without groups.** Adding a tree is adding the imports of its leaves, without braces, one after
the other. Then the modules of its globs come after those that were imported, and a name stands for what
the last leaf that binds it says, or for what it stood for before. A leaf binds nothing if and only if it
gives no name, or stands for no path, or for one above the library. -/
theorem add_spread (imports : Imports) (tree : UseTree) :
    imports.add tree module children =
        tree.spread.foldl (fun imports leaf => imports.add leaf.tree module children) imports ∧
      (imports.add tree module children).globs =
        imports.globs ++ tree.spread.filterMap (Leaf.glob? module children) ∧
      (∀ name, (imports.add tree module children).find? name =
        ((tree.spread.filterMap (Leaf.entry? module children)).reverse.lookup name).or
          (imports.find? name)) ∧
      ∀ leaf : Leaf, leaf.entry? module children = none ↔
        leaf.alias? = none ∨ leaf.path = [] ∨ ModulePath.ClimbsOut leaf.path module := by
  -- Names and globs are read off the same leaves, in the order in which they were written.
  have hnames : tree.leaves.filterMap (entryOf? module children) =
      tree.spread.filterMap (Leaf.entry? module children) := by
    rw [leaves_spread, List.filterMap_flatMap, List.filterMap_eq_flatMap_toList]
    simp only [filterMap_leaves_tree]
  have hglobs : tree.leaves.filterMap (globOf? module children) =
      tree.spread.filterMap (Leaf.glob? module children) := by
    rw [leaves_spread, List.filterMap_flatMap, List.filterMap_eq_flatMap_toList]
    simp only [filterMap_leaves_tree]
  refine ⟨?_, ?_, ?_, fun leaf => Leaf.entry?_eq_none_iff⟩
  · unfold add
    rw [leaves_spread, List.foldl_flatMap]
  · unfold add
    rw [foldl_addLeaf_eq, hglobs]
  · intro name
    unfold add
    rw [find?_foldl_addLeaf_eq, hnames]

/-- A name after `as` is not always bound, even if its path stays inside the library: before
`self as here` there is no path to bind. -/
theorem find?_rename_eq_none :
    ¬ ∀ (leaf : Leaf) (name newName module : String) (children : List String),
      leaf.last = .rename name newName → newName ≠ "_" → ¬ ModulePath.ClimbsOut leaf.path module →
      ((({} : Imports).add leaf.tree module children).find? newName).isSome := by
  intro hall
  have hbound := hall ⟨[], .rename "self" "here"⟩ "self" "here" "crate::a" [] rfl (by decide) (by decide)
  exact absurd hbound (by decide)

end Imports

end PayloadSchema
