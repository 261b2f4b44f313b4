import PayloadSchema.Proofs.Resolve.Chains
import PayloadSchema.Proofs.Resolve.Precedence

/-!
# What names mean

The names of a path, as they are written in a file, mean a well-known type, a declaration, or nothing
(`FileScope.meaning`). This has nothing to do with the arguments of the path nor with its text: the arguments
are put into what the names mean, and the text counts only where they mean nothing. A declaration is the
file's own, or it lies behind one of a few paths (`FileScope.targets`) and what these lead to.

* `FileScope.named_under` — a path becomes what its names mean, over its arguments;
* `FileScope.lookup_under` — the declaration that names lead to;
* `Declaration.within_congr` — a search has one outcome under two views that agree on what is looked at.
-/

namespace PayloadSchema

/-! ## Meanings -/

/-- What the names of a path mean. -/
inductive Meaning where
  /-- A well-known type, by its name. -/
  | known (name : String) (type : WellKnown)
  | declared (declaration : Declaration)
  | nothing
deriving DecidableEq

/-- The reference at an index, or any value where there is none. -/
def typeAt (types : List SourceType) (index : Nat) : SourceType :=
  (types[index]?).getD (.ready (.dynamic "_"))

/-- A well-known type of a name over references for its arguments. -/
def WellKnown.typeOver (name : String) (types : List SourceType) : WellKnown → SourceType
  | optional => .ready (.optional (typeAt types 0))
  | pointer => .ready (.pointer (typeAt types 0))
  | list => .ready (.list (typeAt types 0))
  | map => .ready (.map (typeAt types 0) (typeAt types 1))
  | scalar s => scalarType name s
  | json => jsonType
  | jsonMap => .ready (.map (scalarType "String" .text) jsonType)

namespace Meaning

/-- What a declaration that was found means. -/
def ofFound : Option Declaration → Meaning
  | some d => declared d
  | none => nothing

/-- The reference that names with a meaning become, over references for the arguments; the text of the path
is what is shown if they mean nothing. -/
def typeOver (display : String) (types : List SourceType) : Meaning → SourceType
  | known name type => type.typeOver name types
  | declared d => (Instantiation.mk d types).toType
  | nothing => unresolvedType display

end Meaning

section

variable (v : View)

theorem argumentAt_under (arguments : List (Asking SourceType)) (index : Nat) :
    (argumentAt arguments index).under v = typeAt (arguments.map (Asking.under v)) index := by
  unfold argumentAt typeAt
  rw [List.getElem?_map]
  cases arguments[index]? <;> rfl

theorem WellKnown.toType_under_eq_typeOver (name : String) (arguments : List (Asking SourceType))
    (known : WellKnown) :
    (known.toType name arguments).under v = known.typeOver name (arguments.map (Asking.under v)) := by
  cases known <;>
    simp only [toType, typeOver, Asking.under_bind, Asking.under_pure, argumentAt_under]

end

namespace FileScope

variable (scope : FileScope) (v : View)

/-- What names mean in a file. A well-known type gives way to a declaration that the file is known to own, or
that comes with all names of a module. -/
def meaning (names : List String) : Meaning :=
  let found := (scope.lookup names).under v
  match WellKnown.ofName? (names.getLastD "") (scope.origin? names) with
  | none => .ofFound found
  | some known =>
    if scope.owns names ∨ ((scope.origin? names).isNone ∧ found.isSome) then .ofFound found
    else .known (names.getLastD "") known

variable {scope} {names : List String}

/-- The well-known type that a path becomes is what its names mean; if there is none, the names mean what is
found for them. -/
theorem wellKnown?_under (arguments : List (Asking SourceType)) :
    ((scope.wellKnown? names arguments).under v = none ∧
        scope.meaning v names = .ofFound ((scope.lookup names).under v)) ∨
      ∃ name known, scope.meaning v names = .known name known ∧
        (scope.wellKnown? names arguments).under v = some (known.typeOver name (arguments.map (Asking.under v))) := by
  unfold wellKnown? meaning
  dsimp only
  cases hname : WellKnown.ofName? (names.getLastD "") (scope.origin? names) with
  | none => exact .inl ⟨by split <;> rfl, rfl⟩
  | some known =>
      by_cases howns : scope.owns names = true
      · exact .inl ⟨by simp [howns], by simp [howns]⟩
      by_cases horigin : (scope.origin? names).isNone = true
      · -- the names are one that no import binds, so that only globs are left
        have hnone := Option.isNone_iff_eq_none.1 horigin
        have hlength := length_eq_one_of_origin?_eq_none hnone
        have hglobs := lookup_eq_lookupInGlobs (Bool.eq_false_iff.2 howns) hnone
        rw [hglobs]
        generalize names.getLastD "" = name
        cases hfound : (scope.lookupInGlobs name).under v with
        | some d => exact .inl ⟨by simp [howns, hlength, hnone, hfound], by simp [hnone]⟩
        | none =>
            refine .inr ⟨name, known, by simp [howns], ?_⟩
            simp [howns, hlength, hnone, hfound, WellKnown.toType_under_eq_typeOver]
      · refine .inr ⟨names.getLastD "", known, by simp [howns, horigin], ?_⟩
        simp [howns, horigin, WellKnown.toType_under_eq_typeOver]

/-- A path becomes what it is bound to, or else what its names mean over what its arguments become. -/
theorem named_under (bindings : Bindings) (display : String) (arguments : List (Asking SourceType)) :
    (scope.named bindings names display arguments).under v =
      (bound? bindings names arguments).getD
        ((scope.meaning v names).typeOver display (arguments.map (Asking.under v))) := by
  unfold named
  cases bound? bindings names arguments with
  | some type => rfl
  | none =>
      rw [Option.getD_none, Asking.under_bind]
      -- A well-known name answers before the look-up is asked; otherwise the declaration found, or nothing.
      rcases wellKnown?_under v arguments with ⟨hnone, hmeaning⟩ | ⟨name, known, hmeaning, hknown⟩
      · rw [hnone, hmeaning]
        dsimp only
        rw [Asking.under_bind]
        cases (scope.lookup names).under v with
        | some d => simp [Meaning.ofFound, Meaning.typeOver]
        | none => rfl
      · rw [hknown, hmeaning]
        rfl

/-- Names that the file is known to own mean what is found for them. -/
theorem meaning_of_owns (howns : scope.owns names = true) :
    scope.meaning v names = .ofFound ((scope.lookup names).under v) := by
  unfold meaning
  split
  · rfl
  · rw [if_pos (.inl howns)]

/-- Names that are not well-known mean what is found for them. -/
theorem meaning_of_ofName?_eq_none
    (hname : WellKnown.ofName? (names.getLastD "") (scope.origin? names) = none) :
    scope.meaning v names = .ofFound ((scope.lookup names).under v) := by
  unfold meaning
  rw [hname]

/-! ## Where names lead -/

variable (scope) in
/-- The declaration in the file itself that a single name means. -/
def own? : List String → Option Declaration
  | [name] => if scope.declares name then some (scope.declaration name) else none
  | _ => none

variable (scope) in
/-- The paths behind which the declaration lies that names mean, if it is not the file's own: the path that
an import of the first name stands for, the names in each module of which all names are imported, or the path
that the names are. -/
def targets : List String → List String
  | [] => []
  | [name] =>
    match scope.imports.find? name with
    | some target => [target]
    | none => scope.imports.globs.map fun glob => glob ++ "::" ++ name
  | first :: rest =>
    match scope.imports.find? first with
    | some target => [target ++ "::" ++ Segments.join rest]
    | none => (ModulePath.canonicalize? (first :: rest) scope.modulePath scope.children).toList

/-- Names lead to a declaration of the file itself, or to the first one behind their paths. -/
theorem lookup_under (names : List String) :
    (scope.lookup names).under v =
      (scope.own? names).or ((scope.targets names).findSome? fun path => (Declaration.atPath path).under v) := by
  have hsingle (path : String) :
      [path].findSome? (fun path => (Declaration.atPath path).under v) =
        (Declaration.atPath path).under v := by
    rw [List.findSome?_cons]
    cases (Declaration.atPath path).under v <;> rfl
  -- A single name may be declared here or come through a glob; a longer path is imported or absolute.
  rcases names with _ | ⟨name, _ | ⟨second, rest⟩⟩
  · rfl
  · rw [lookup, own?, targets]
    by_cases hdeclares : scope.declares name = true
    · simp [hdeclares]
    · rw [if_neg hdeclares, if_neg hdeclares, Option.none_or]
      cases scope.imports.find? name with
      | some target => exact (hsingle target).symm
      | none =>
          dsimp only
          rw [List.findSome?_map]
          exact Asking.under_first v _ _
  · unfold lookup own? targets
    dsimp only
    rw [Option.none_or]
    cases scope.imports.find? name with
    | some target => exact (hsingle _).symm
    | none =>
        cases ModulePath.canonicalize? (name :: second :: rest) scope.modulePath scope.children with
        | some path => exact (hsingle path).symm
        | none => rfl

end FileScope

/-! ## Two views -/

/-- Two functions that agree on the members of a list find the same there. -/
theorem findSome?_congr_of_mem {α β : Type} {f g : α → Option β} {as : List α} (h : ∀ a ∈ as, f a = g a) :
    as.findSome? f = as.findSome? g := by
  induction as with
  | nil => rfl
  | cons a as ih =>
      rw [List.findSome?_cons, List.findSome?_cons, h a List.mem_cons_self,
        ih fun b hb => h b (List.mem_cons_of_mem a hb)]

/-- Two views under which so many links from a path look the same give one outcome. -/
theorem Declaration.within_congr {v v' : View} {links : Nat} {path : String}
    (h : ∀ k < links, ∀ next, v.Chain k path next → v'.look next = v.look next) :
    (within links path).under v' = (within links path).under v := by
  induction links generalizing path with
  | zero => rfl
  | succ links ih =>
      rw [within_under, within_under, h 0 (Nat.succ_pos _) path (.refl path)]
      rcases v.look_cases path with ⟨d, hlook, -⟩ | ⟨paths, hlook, -, himports⟩
      · rw [hlook]
      · rw [hlook]
        dsimp only
        refine findSome?_congr_of_mem fun next hnext => ih fun k hk last hchain => ?_
        have himport : v.Imports path next := (himports next).1 hnext
        exact h (k + 1) (by omega) last (.head himport hchain)

end PayloadSchema
