import PayloadSchema.Proofs.Resolve.Identity
import PayloadSchema.Proofs.Resolve.Precedence

/-!
# Substituting for type parameters

There are two ways to give a type parameter a meaning. The parameter may be bound to a reference, as is
done for the arguments of a declaration, or a written type may be put in its place before anything is
walked over. Both lead to the same reference, as long as what is written can be walked over at all: a type
without a schema is known by its text, in which a parameter is a name like any other.

* `FileScope.walk_subst` — walking with bindings is walking after substitution, whatever answers the
  questions that are asked on the way;
* `Resolver.Honest.sameWithin_subst` — so resolvers that remember answers find the same type, all the way
  down.
-/

namespace PayloadSchema

namespace Source

/-! ## Substitution -/

/-- Written types for type parameters; of two entries with one name the first counts. -/
abbrev Assignment := List (String × TypeExpr)

/-- The type for a path that is a parameter: a single name without arguments. -/
def Assignment.find? (σ : Assignment) : List (Segment TypeExpr) → Option TypeExpr
  | [⟨name, _, []⟩] => σ.lookup name
  | _ => none

mutual
/-- A type with other types in the place of parameters. -/
def TypeExpr.subst (σ : Assignment) : TypeExpr → TypeExpr
  | .path true ⟨leading, segments⟩ => .path true ⟨leading, substSegments σ segments⟩
  | .path false ⟨leading, segments⟩ =>
    match σ.find? segments with
    | some type => type
    | none => .path false ⟨leading, substSegments σ segments⟩
  | .reference target => .reference (target.subst σ)
  | .pointer target => .pointer (target.subst σ)
  | .slice element => .slice (element.subst σ)
  | .array element => .array (element.subst σ)
  | .parenthesized inner => .parenthesized (inner.subst σ)
  | .tuple elements => .tuple (substAll σ elements)
  | .function inputs => .function (substAll σ inputs)
  | .traitObject none => .traitObject none
  | .traitObject (some ⟨leading, segments⟩) => .traitObject (some ⟨leading, substSegments σ segments⟩)
  | .implTrait => .implTrait
  | .never => .never
  | .inferred => .inferred
  | .macroCall => .macroCall
  | .other => .other
/-- The segments of a path with other types in the place of parameters. -/
def substSegments (σ : Assignment) : List (Segment TypeExpr) → List (Segment TypeExpr)
  | [] => []
  | ⟨name, style, types⟩ :: segments => ⟨name, style, substAll σ types⟩ :: substSegments σ segments
/-- Types with other types in the place of parameters. -/
def substAll (σ : Assignment) : List TypeExpr → List TypeExpr
  | [] => []
  | type :: types => type.subst σ :: substAll σ types
end

/-- Only arguments are substituted in. -/
theorem map_name_substSegments (σ : Assignment) : ∀ segments : List (Segment TypeExpr),
    (substSegments σ segments).map (·.name) = segments.map (·.name)
  | [] => by
      rw [substSegments]
  | ⟨name, style, types⟩ :: segments => by
      rw [substSegments, List.map_cons, List.map_cons, map_name_substSegments σ segments]

end Source

open Source (Assignment Segment TypeExpr substSegments substAll)

namespace FileScope

/-! ## Walking with parameters bound -/

section

variable (scope : FileScope) (bindings : Bindings)

/-- The types of an assignment as references. -/
def walkAssigned : Assignment → Asking Bindings
  | [] => pure []
  | (name, type) :: σ => do
    let reference ← scope.walk bindings type
    return (name, reference) :: (← walkAssigned σ)

/-- The reference that a written type becomes when parameters are bound to what the types of an assignment
become. -/
def walkWith (σ : Assignment) (type : TypeExpr) : Asking SourceType := do
  let assigned ← scope.walkAssigned bindings σ
  scope.walk (assigned ++ bindings) type

variable (v : View)

/-- Whether names mean a type in a file, well-known or declared. -/
def means (names : List String) : Bool :=
  ((scope.wellKnown? names []).under v).isSome || ((scope.lookup names).under v).isSome

variable (σ : Assignment)

mutual
/-- Whether each path in a type is a parameter or means a type, and no other part of it is known by its
text. -/
def resolves : TypeExpr → Bool
  | .path true _ => false
  | .path false ⟨_, segments⟩ =>
    ((σ.find? segments).isSome || scope.means v (segments.map (·.name))) && resolvesLast segments
  | .reference target => resolves target
  | .pointer target => resolves target
  | .slice element => resolves element
  | .array element => resolves element
  | .parenthesized inner => resolves inner
  | .tuple elements => elements.isEmpty
  | .function _ => false
  | .traitObject _ => false
  | .implTrait => true
  | .never => true
  | .inferred => true
  | .macroCall => true
  | .other => true
/-- The same of the arguments of the last segment of a path. -/
def resolvesLast : List (Segment TypeExpr) → Bool
  | [] => true
  | [⟨_, _, types⟩] => resolvesAll types
  | _ :: segment :: segments => resolvesLast (segment :: segments)
def resolvesAll : List TypeExpr → Bool
  | [] => true
  | type :: types => resolves type && resolvesAll types
end

end

/-! ## What bindings say -/

/-- Bindings of the parameters of an assignment, to references that have to do with their types. -/
abbrev Binds (R : TypeExpr → SourceType → Prop) (σ : Assignment) (assigned : Bindings) : Prop :=
  List.Forall₂ (fun entry entry' => entry.1 = entry'.1 ∧ R entry.2 entry'.2) σ assigned

variable {scope : FileScope}

/-- A path that is assigned a type is bound to its reference; any other path is bound as before, and after
substitution still is. -/
theorem bound?_walkLast (scope : FileScope) {R : TypeExpr → SourceType → Prop} {σ : Assignment}
    {assigned : Bindings} (h : Binds R σ assigned) (bindings : Bindings) (segments : List (Segment TypeExpr)) :
    (∃ type reference, σ.find? segments = some type ∧ R type reference ∧
      bound? (assigned ++ bindings) (segments.map (·.name))
        (scope.walkLast (assigned ++ bindings) segments) = some reference) ∨
    (σ.find? segments = none ∧
      bound? (assigned ++ bindings) (segments.map (·.name))
          (scope.walkLast (assigned ++ bindings) segments) =
        bound? bindings (segments.map (·.name)) (scope.walkLast bindings (substSegments σ segments))) := by
  rcases segments with _ | ⟨⟨name, style, _ | ⟨type, types⟩⟩, _ | ⟨segment, segments⟩⟩
  · exact .inr ⟨rfl, by simp [bound?]⟩
  · -- a single name without arguments
    have hlookup := sameOption_lookup h name
    simp only [Assignment.find?, bound?, walkLast, walkAll, substSegments, substAll, List.map_cons,
      List.map_nil, List.length_singleton, List.isEmpty_nil, and_self, if_true, List.getLastD_cons,
      List.getLastD_nil, List.lookup_append]
    generalize σ.lookup name = type?, assigned.lookup name = reference? at hlookup
    cases hlookup with
    | none => exact .inr ⟨rfl, rfl⟩
    | @some type reference hreference => exact .inl ⟨type, reference, rfl, hreference, rfl⟩
  · exact .inr ⟨rfl, by simp [bound?]⟩
  · exact .inr ⟨rfl, by simp [bound?, walkLast, walkAll, substSegments, substAll]⟩
  · exact .inr ⟨rfl, by simp [bound?]⟩

/-! ## One induction for all askers

Who answers the questions decides when two searches count as the same. What walking over types needs of such
a relation is the same each time, and so is the induction over the syntax.
-/

/-- A relation between searches for references that walking keeps, where names that mean a type may be
written in different ways. -/
structure KeptByWalking (v : View) (scope : FileScope) (bindings : Bindings)
    (P : Asking SourceType → Asking SourceType → Prop) : Prop where
  unsupported (display reason : String) :
    P (pure (unsupportedType display reason)) (pure (unsupportedType display reason))
  pointer {x y : Asking SourceType} (h : P x y) :
    P (x >>= fun t => pure (.ready (.pointer t))) (y >>= fun t => pure (.ready (.pointer t)))
  list {x y : Asking SourceType} (h : P x y) :
    P (x >>= fun t => pure (.ready (.list t))) (y >>= fun t => pure (.ready (.list t)))
  bound {name : String} {reference : SourceType} (h : bindings.lookup name = some reference) :
    P (pure reference) (pure reference)
  named {names : List String} {arguments arguments' : List (Asking SourceType)} (display display' : String)
    (h : List.Forall₂ P arguments arguments') (hmeans : scope.means v names = true) :
    P (scope.named [] names display arguments) (scope.named [] names display' arguments')

/-- Bound names are what they are bound to. -/
theorem named_of_bound? {bindings : Bindings} {names : List String} {display : String}
    {arguments : List (Asking SourceType)} {reference : SourceType}
    (h : bound? bindings names arguments = some reference) :
    scope.named bindings names display arguments = pure reference := by
  unfold named
  rw [h]

/-- Other names are what they are outside of declarations. -/
theorem named_of_bound?_eq_none {bindings : Bindings} {names : List String} {display : String}
    {arguments : List (Asking SourceType)} (h : bound? bindings names arguments = none) :
    scope.named bindings names display arguments = scope.named [] names display arguments := by
  unfold named
  rw [h, bound?_nil]

/-- Only a bound name stands for what it is bound to. -/
theorem exists_lookup_of_bound? {α : Type} {bindings : Bindings} {names : List String} {arguments : List α}
    {reference : SourceType} (h : bound? bindings names arguments = some reference) :
    ∃ name, bindings.lookup name = some reference := by
  unfold bound? at h
  split at h
  · exact ⟨_, h⟩
  · cases h

namespace KeptByWalking

variable {v : View} {bindings assigned : Bindings} {σ : Assignment}
  {P : Asking SourceType → Asking SourceType → Prop}

-- Both sides walk over the same syntax but at a parameter, where one has a reference and the other a type
-- that becomes it.
mutual
/-- A type with the parameters bound and the type with the arguments written in their places become related
references. -/
theorem walk (hP : KeptByWalking v scope bindings P)
    (h : Binds (fun type reference => P (pure reference) (scope.walk bindings type)) σ assigned) :
    ∀ type : TypeExpr, scope.resolves v σ type = true →
      P (scope.walk (assigned ++ bindings) type) (scope.walk bindings (type.subst σ))
  | .path true _, hresolves => by
      rw [resolves] at hresolves
      cases hresolves
  | .path false ⟨leading, segments⟩, hresolves => by
      rw [resolves, Bool.and_eq_true, Bool.or_eq_true] at hresolves
      obtain ⟨hpath, hlast⟩ := hresolves
      rw [FileScope.walk, TypeExpr.subst]
      -- A single name that the assignment binds is replaced by its type; every other head is walked as it
      -- stands.
      rcases bound?_walkLast scope h bindings segments with
        ⟨type, reference, htype, hreference, hbound⟩ | ⟨htype, hbound⟩
      · rw [htype, named_of_bound? hbound]
        exact hreference
      · rw [htype, Option.isSome_none, Bool.false_eq_true, false_or] at hpath
        rw [htype]
        dsimp only
        rw [FileScope.walk, Source.map_name_substSegments]
        cases hkept : bound? bindings (segments.map (·.name))
            (scope.walkLast bindings (substSegments σ segments)) with
        | some reference =>
            rw [named_of_bound? (hbound.trans hkept), named_of_bound? hkept]
            obtain ⟨name, hname⟩ := exists_lookup_of_bound? hkept
            exact hP.bound hname
        | none =>
            rw [named_of_bound?_eq_none (hbound.trans hkept), named_of_bound?_eq_none hkept]
            -- Under other arguments only the head must still mean something, since an unresolved type would
            -- show its text.
            exact hP.named _ _ (hP.walkLast h segments hlast) hpath
  | .reference target, hresolves => by
      rw [resolves] at hresolves
      rw [FileScope.walk, TypeExpr.subst, FileScope.walk]
      exact hP.pointer (hP.walk h target hresolves)
  | .pointer target, hresolves => by
      rw [resolves] at hresolves
      rw [FileScope.walk, TypeExpr.subst, FileScope.walk]
      exact hP.pointer (hP.walk h target hresolves)
  | .slice element, hresolves => by
      rw [resolves] at hresolves
      rw [FileScope.walk, TypeExpr.subst, FileScope.walk]
      exact hP.list (hP.walk h element hresolves)
  | .array element, hresolves => by
      rw [resolves] at hresolves
      rw [FileScope.walk, TypeExpr.subst, FileScope.walk]
      exact hP.list (hP.walk h element hresolves)
  | .parenthesized inner, hresolves => by
      rw [resolves] at hresolves
      rw [FileScope.walk, TypeExpr.subst, FileScope.walk]
      exact hP.walk h inner hresolves
  | .tuple [], _ => hP.unsupported _ _
  | .tuple (_ :: _), hresolves => by
      rw [resolves] at hresolves
      cases hresolves
  | .function _, hresolves => by
      rw [resolves] at hresolves
      cases hresolves
  | .traitObject _, hresolves => by
      rw [resolves] at hresolves
      cases hresolves
  | .implTrait, _ => hP.unsupported _ _
  | .never, _ => hP.unsupported _ _
  | .inferred, _ => hP.unsupported _ _
  | .macroCall, _ => hP.unsupported _ _
  | .other, _ => hP.unsupported _ _
/-- The arguments of the last segment become related references. -/
theorem walkLast (hP : KeptByWalking v scope bindings P)
    (h : Binds (fun type reference => P (pure reference) (scope.walk bindings type)) σ assigned) :
    ∀ segments : List (Segment TypeExpr), scope.resolvesLast v σ segments = true →
      List.Forall₂ P (scope.walkLast (assigned ++ bindings) segments)
        (scope.walkLast bindings (substSegments σ segments))
  | [], _ => by
      rw [substSegments, FileScope.walkLast, FileScope.walkLast]
      exact .nil
  | [⟨_, _, types⟩], hresolves => by
      rw [resolvesLast] at hresolves
      rw [substSegments, substSegments, FileScope.walkLast, FileScope.walkLast]
      exact hP.walkAll h types hresolves
  | ⟨_, _, _⟩ :: ⟨name, style, types⟩ :: segments, hresolves => by
      rw [resolvesLast] at hresolves
      have hlast := hP.walkLast h (⟨name, style, types⟩ :: segments) hresolves
      rw [substSegments] at hlast
      rw [substSegments, substSegments, FileScope.walkLast, FileScope.walkLast]
      exact hlast
/-- Types become related references, one by one. -/
theorem walkAll (hP : KeptByWalking v scope bindings P)
    (h : Binds (fun type reference => P (pure reference) (scope.walk bindings type)) σ assigned) :
    ∀ types : List TypeExpr, scope.resolvesAll v σ types = true →
      List.Forall₂ P (scope.walkAll (assigned ++ bindings) types)
        (scope.walkAll bindings (substAll σ types))
  | [], _ => by
      rw [substAll, FileScope.walkAll, FileScope.walkAll]
      exact .nil
  | type :: types, hresolves => by
      rw [resolvesAll, Bool.and_eq_true] at hresolves
      rw [substAll, FileScope.walkAll, FileScope.walkAll]
      exact .cons (hP.walk h type hresolves.1) (hP.walkAll h types hresolves.2)
end

end KeptByWalking

/-! ## A view -/

section

variable {v : View}

/-- Which well-known type names mean has nothing to do with their arguments, and these count only with
what they become. -/
theorem exists_under_wellKnown? (scope : FileScope) (v : View) (names : List String) :
    ∃ known? : Option WellKnown, ∀ arguments : List (Asking SourceType),
      (scope.wellKnown? names arguments).under v =
        known?.map fun known => (known.toType (names.getLastD "") arguments).under v := by
  unfold wellKnown?
  dsimp only
  generalize names.getLastD "" = name
  by_cases howns : scope.owns names = true
  · exact ⟨none, fun arguments => by simp [howns]⟩
  cases hname : WellKnown.ofName? name (scope.origin? names) with
  | none => exact ⟨none, fun arguments => by simp [howns]⟩
  | some known =>
      -- Whether the name is known never depends on the arguments: only its type is made of them.
      by_cases hhidden : (names.length = 1 ∧ (scope.origin? names).isNone = true) ∧
          ((scope.lookupInGlobs name).under v).isSome = true
      · exact ⟨none, fun arguments => by simp [howns, hhidden]⟩
      · refine ⟨some known, ?_⟩
        intro arguments
        by_cases hsingle : names.length = 1 ∧ (scope.origin? names).isNone = true
        · have hglobs : ¬ ((scope.lookupInGlobs name).under v).isSome = true := fun h => hhidden ⟨hsingle, h⟩
          simp only [howns, Bool.false_eq_true, if_false, if_pos hsingle, Asking.under_bind, if_neg hglobs,
            Asking.under_pure, Option.map_some]
        · simp only [howns, Bool.false_eq_true, if_false, if_neg hsingle, Asking.under_bind,
            Asking.under_pure, Option.map_some]

/-- Whether names mean a well-known type has nothing to do with their arguments. -/
theorem isSome_under_wellKnown? (scope : FileScope) (v : View) (names : List String)
    (arguments arguments' : List (Asking SourceType)) :
    ((scope.wellKnown? names arguments).under v).isSome =
      ((scope.wellKnown? names arguments').under v).isSome := by
  obtain ⟨known?, hknown⟩ := exists_under_wellKnown? scope v names
  rw [hknown, hknown, Option.isSome_map, Option.isSome_map]

variable {arguments arguments' : List (Asking SourceType)}
  (h : arguments.map (Asking.under v) = arguments'.map (Asking.under v))

include h

/-- Arguments that are the same are the same at each place. -/
theorem under_argumentAt_congr (index : Nat) :
    (argumentAt arguments index).under v = (argumentAt arguments' index).under v := by
  have hindex := congrArg (fun types => types[index]?) h
  simp only [List.getElem?_map] at hindex
  unfold argumentAt
  cases harguments : arguments[index]? <;> cases harguments' : arguments'[index]? <;>
    simp_all

/-- A well-known type is the same for arguments that are. -/
theorem under_toType_congr (known : WellKnown) (name : String) :
    (known.toType name arguments).under v = (known.toType name arguments').under v := by
  cases known <;>
    simp only [WellKnown.toType, Asking.under_bind, Asking.under_pure, under_argumentAt_congr h]

/-- Whether a name is well known does not depend on how its arguments are found. -/
theorem under_wellKnown?_congr (names : List String) :
    (scope.wellKnown? names arguments).under v = (scope.wellKnown? names arguments').under v := by
  obtain ⟨known?, hknown⟩ := exists_under_wellKnown? scope v names
  rw [hknown, hknown]
  congr 1
  funext known
  exact under_toType_congr h known _

end

/-- Walking keeps the equality of outcomes in a view. -/
theorem keptByWalking_under (v : View) (scope : FileScope) (bindings : Bindings) :
    KeptByWalking v scope bindings fun x y => x.under v = y.under v where
  unsupported _ _ := rfl
  pointer h := by simp [h]
  list h := by simp [h]
  bound _ := rfl
  named := by
    intro names arguments arguments' display display' h hmeans
    have hunder : arguments.map (Asking.under v) = arguments'.map (Asking.under v) :=
      map_eq_map_iff_forall₂.2 h
    unfold named
    rw [bound?_nil, bound?_nil]
    dsimp only
    simp only [Asking.under_bind, under_wellKnown?_congr hunder names]
    cases hknown : (scope.wellKnown? names arguments').under v with
    | some type => rfl
    | none =>
        -- With neither a known name nor a declaration the path would mean nothing, which is excluded.
        cases hlookup : (scope.lookup names).under v with
        | some declaration => simp [hlookup, hunder]
        | none =>
            have hnil := isSome_under_wellKnown? scope v names [] arguments'
            simp [means, hnil, hknown, hlookup] at hmeans

/-- Under a view, the types of an assignment become what their parameters are bound to. -/
theorem binds_under_walkAssigned (v : View) (scope : FileScope) (bindings : Bindings) (σ : Assignment) :
    Binds (fun type reference =>
        (pure reference : Asking SourceType).under v = (scope.walk bindings type).under v)
      σ ((scope.walkAssigned bindings σ).under v) := by
  induction σ with
  | nil => exact .nil
  | cons entry σ ih =>
      rw [walkAssigned]
      simp only [Asking.under_bind, Asking.under_pure]
      exact .cons ⟨rfl, rfl⟩ ih

/-- **Substitution.** Where each path in a type is a parameter or means a type, walking over the type with
its parameters bound to what other types become is walking over it after these types were put in their
place: both give the same reference, so one identity and one type to load behind it, whatever the answers to
the questions on the way are. -/
theorem walk_subst (v : View) (scope : FileScope) (bindings : Bindings) (σ : Assignment) (type : TypeExpr)
    (hresolves : scope.resolves v σ type = true) :
    (scope.walkWith bindings σ type).under v = (scope.walk bindings (type.subst σ)).under v := by
  have hkept := keptByWalking_under v scope bindings
  have hassigned := binds_under_walkAssigned v scope bindings σ
  unfold walkWith
  rw [Asking.under_bind]
  exact hkept.walk hassigned type hresolves

end FileScope

/-! ### A page of users -/

namespace Paging

/-- A library with a generic type. -/
def files : Files :=
  .ofSources [("lib.rs", "struct User { id: u64 } struct Page<T> { items: Vec<T> }")]

/-- What the library says at its surface. -/
def lib : FileScope :=
  { path := ⟨"src/lib.rs"⟩, modulePath := "crate", imports := {}, declared := ["User", "Page"], children := [] }

def word (name : String) : TypeExpr := .path false ⟨false, [{ name }]⟩

def applied (name : String) (argument : TypeExpr) : TypeExpr :=
  .path false ⟨false, [{ name, style := .angled, types := [argument] }]⟩

/-- The parameter stands for users. -/
def users : Assignment := [("T", word "User")]

/-- A page of lists of what the parameter stands for. -/
def page : TypeExpr := applied "Page" (applied "Vec" (word "T"))

end Paging

namespace FileScope

open Paging

/-- A page of lists of a parameter that stands for users is a page of lists of users. -/
theorem walk_subst_page :
    ((files.view ⟨""⟩).scope lib.path).toOption = some lib ∧ lib.resolves (files.view ⟨""⟩) users page = true ∧
      (lib.walkWith [] users page).under (files.view ⟨""⟩) =
        (lib.walk [] (page.subst users)).under (files.view ⟨""⟩) ∧
      ((lib.walkWith [] users page).under (files.view ⟨""⟩)).identity = "crate::Page<Vec<crate::User>>" := by
  have hresolves : lib.resolves (files.view ⟨""⟩) users page = true := by decide +kernel
  exact ⟨by decide +kernel, hresolves, walk_subst (files.view ⟨""⟩) lib [] users page hresolves,
    by decide +kernel⟩

/-- A tuple is known by its text, in which the parameter keeps its name. -/
example : ((lib.walkWith [] users (.tuple [word "T"])).under (files.view ⟨""⟩)).identity = "(T)" ∧
    ((lib.walk [] (TypeExpr.subst users (.tuple [word "T"]))).under (files.view ⟨""⟩)).identity = "(User)" := by
  decide +kernel

end FileScope

/-! ## Resolvers that remember -/

namespace FileScope

variable {scope : FileScope}

section

variable {files : Files} {root : FilePath} (hscope : scope.Alike files root scope) {bindings : Bindings}
  (hbindings : Bindings.Alike files root bindings bindings)

open Asking (Yields yields_bind yields_pure yields_under)

include hscope

/-- Names that mean a type for the files mean one for everyone who is asked. -/
theorem isSome_of_means {names : List String} {arguments arguments' : List (Asking SourceType)}
    (h : ArgumentsAlike files root arguments arguments') (hmeans : scope.means (files.view root) names = true)
    {known : Option SourceType} (hknown : Yields files root (scope.wellKnown? names arguments) known)
    {found : Option Declaration} (hfound : Yields files root (scope.lookup names) found) :
    known.isSome = true ∨ found.isSome = true := by
  have hsame := wellKnown?_alike hscope names h _ _ hknown (yields_under files root _)
  have hsame' := lookup_alike hscope names _ _ hfound (yields_under files root _)
  rw [hsame.isSome_eq, hsame'.isSome_eq, isSome_under_wellKnown? scope _ names arguments' [], ← Bool.or_eq_true]
  exact hmeans

include hbindings

/-- Walking keeps references alike. -/
theorem keptByWalking_alike :
    KeptByWalking (files.view root) scope bindings (Asking.Alike files root (TypeRef.Alike files root)) where
  unsupported _ _ := .pure (.unsupported _ _)
  pointer h := h.bind fun _ _ ht => .pure (.pointer ht.identity_eq ht)
  list h := h.bind fun _ _ ht => .pure (.list ht.identity_eq ht)
  bound := by
    intro name reference h
    have hsame := hbindings.lookup name
    rw [h] at hsame
    cases hsame with
    | some ht => exact .pure ht
  named := by
    intro names arguments arguments' display display' h hmeans type type' htype htype'
    unfold named at htype htype'
    rw [bound?_nil] at htype htype'
    obtain ⟨known, hknown, htype⟩ := yields_bind.1 htype
    obtain ⟨known', hknown', htype'⟩ := yields_bind.1 htype'
    -- The same three places as in the walk, asked in the same order by both.
    cases wellKnown?_alike hscope names h _ _ hknown hknown' with
    | some hreference =>
        rw [yields_pure.1 htype, yields_pure.1 htype']
        exact hreference
    | none =>
        obtain ⟨found, hfound, htype⟩ := yields_bind.1 htype
        obtain ⟨found', hfound', htype'⟩ := yields_bind.1 htype'
        cases lookup_alike hscope names _ _ hfound hfound' with
        | some hdeclaration =>
            obtain ⟨types, htypes, htype⟩ := yields_bind.1 htype
            obtain ⟨types', htypes', htype'⟩ := yields_bind.1 htype'
            rw [yields_pure.1 htype, yields_pure.1 htype']
            exact Instantiation.Alike.toType ⟨hdeclaration, Asking.Alike.all h _ _ htypes htypes'⟩
        | none =>
            have hmeant := isSome_of_means hscope h hmeans hknown hfound
            simp at hmeant

/-- What parameters are bound to is like all that their types become. -/
theorem binds_of_yields {σ : Assignment} {assigned : Bindings}
    (h : Yields files root (scope.walkAssigned bindings σ) assigned) :
    Binds (fun type reference =>
        Asking.Alike files root (TypeRef.Alike files root) (pure reference) (scope.walk bindings type))
      σ assigned := by
  induction σ generalizing assigned with
  | nil =>
      rw [yields_pure.1 h]
      exact .nil
  | cons entry σ ih =>
      obtain ⟨name, type⟩ := entry
      obtain ⟨reference, hreference, h⟩ := yields_bind.1 h
      obtain ⟨rest, hrest, h⟩ := yields_bind.1 h
      rw [yields_pure.1 h]
      -- Each assigned type was walked here, so any other walk of it is alike.
      refine .cons ⟨rfl, ?_⟩ (ih hrest)
      intro a b ha hb
      rw [yields_pure.1 ha]
      exact walk_alike hscope hbindings type _ _ hreference hb

/-- Binding the parameters and writing the arguments in their places come to alike references. -/
theorem walkWith_alike {σ : Assignment} {type : TypeExpr}
    (hresolves : scope.resolves (files.view root) σ type = true) :
    Asking.Alike files root (TypeRef.Alike files root) (scope.walkWith bindings σ type)
      (scope.walk bindings (type.subst σ)) := by
  intro reference reference' h h'
  obtain ⟨assigned, hassigned, h⟩ := yields_bind.1 h
  have hkept := keptByWalking_alike hscope hbindings
  exact hkept.walk (binds_of_yields hscope hbindings hassigned) type hresolves _ _ h h'

end

end FileScope

/-- Resolvers that remember what they like find the same type, all the way down, one with the parameters of
a written type bound and the other after substitution. -/
theorem Resolver.Honest.sameWithin_subst {files : Files} {root : FilePath} {r r' : Resolver}
    (h : r.Honest files root) (h' : r'.Honest files root) {scope : FileScope}
    (hscope : scope.Alike files root scope) {bindings : Bindings}
    (hbindings : Bindings.Alike files root bindings bindings) {σ : Assignment} {type : TypeExpr}
    (hresolves : scope.resolves (files.view root) σ type = true) (levels : Nat) :
    let asked := Resolver.answer files (scope.walkWith bindings σ type) r
    let asked' := Resolver.answer files (scope.walk bindings (type.subst σ)) r'
    SameWithin files asked.2 asked'.2 levels asked.1 asked'.1 := by
  obtain ⟨hyields, hhonest⟩ := h.answer (scope.walkWith bindings σ type)
  obtain ⟨hyields', hhonest'⟩ := h'.answer (scope.walk bindings (type.subst σ))
  have halike := FileScope.walkWith_alike hscope hbindings hresolves _ _ hyields hyields'
  exact hhonest.sameWithin hhonest' levels halike

end PayloadSchema
