import PayloadSchema.Proofs.Files.Spelling
import PayloadSchema.Resolve.Resolver

/-!
# Types of the project before well-known types

A path may lead to a declaration of the project although its last name is that of a well-known type. Which
of the two is meant is decided by how the path is written: the declaration counts if its file declares it,
if an import or the path itself leads into the library of the file, or if it comes with all names of a
module. Written in any other way, as a path below a child module or as an import from another library of
the workspace, the well-known type counts (`FileScope.Eclipses`).

* `FileScope.walk_eq_declaration_iff` — a path that leads to a declaration becomes a reference to just that
  declaration if and only if no well-known name eclipses it; otherwise it becomes the well-known type;
* `FileScope.walk_ne_declaration` — so a declaration can be eclipsed.
-/

namespace PayloadSchema

/-- A well-known type is there already, never a reference to a declaration. -/
theorem WellKnown.toType_under (v : View) (name : String) (arguments : List (Asking SourceType))
    (known : WellKnown) : ∃ d, (known.toType name arguments).under v = .ready d := by
  cases known with
  | json => exact ⟨_, rfl⟩
  | _ => simp [WellKnown.toType, scalarType]

namespace FileScope

open Asking (under_bind under_pure)

variable (v : View) (scope : FileScope)

/-- Names as written in a file are taken for those of a well-known type, whatever is declared: they are not
known to be the project's own, and an import by name or a path stands for them. -/
def Eclipses (names : List String) : Prop :=
  scope.owns names = false ∧
    (WellKnown.ofName? (names.getLastD "") (scope.origin? names)).isSome ∧
    (scope.origin? names).isSome

instance (names : List String) : Decidable (scope.Eclipses names) :=
  inferInstanceAs (Decidable (_ ∧ _ ∧ _))

variable {scope} {names : List String}

/-- Outside of declarations no name is a type parameter. -/
theorem bound?_nil {α : Type} (names : List String) (arguments : List α) :
    bound? [] names arguments = none := by
  simp [bound?]

/-- What several names stand for is known. -/
theorem length_eq_one_of_origin?_eq_none (h : scope.origin? names = none) : names.length = 1 := by
  unfold origin? at h
  split at h
  · rfl
  · cases h

/-- A name that is not the file's own and that no import binds can only come with all names of a
module. -/
theorem lookup_eq_lookupInGlobs (howns : scope.owns names = false)
    (horigin : scope.origin? names = none) :
    scope.lookup names = scope.lookupInGlobs (names.getLastD "") := by
  obtain ⟨name, rfl⟩ := List.length_eq_one_iff.1 (length_eq_one_of_origin?_eq_none horigin)
  have hdeclares : scope.declares name = false := by
    simpa [owns, horigin] using howns
  have himport : scope.imports.find? name = none := horigin
  simp [lookup, hdeclares, himport]

variable (arguments : List (Asking SourceType))

/-- A well-known name that eclipses is taken, whatever it is declared as. -/
theorem wellKnown?_of_eclipses (h : scope.Eclipses names) :
    ∃ known, WellKnown.ofName? (names.getLastD "") (scope.origin? names) = some known ∧
      (scope.wellKnown? names arguments).under v =
        some ((known.toType (names.getLastD "") arguments).under v) := by
  obtain ⟨howns, hknown, horigin⟩ := h
  obtain ⟨known, hknown⟩ := Option.isSome_iff_exists.1 hknown
  have hbound : ¬ (names.length = 1 ∧ (scope.origin? names).isNone = true) := by
    rintro ⟨-, hnone⟩
    simp [Option.isNone_iff_eq_none.1 hnone] at horigin
  refine ⟨known, hknown, ?_⟩
  simp only [wellKnown?, howns, Bool.false_eq_true, if_false, hknown, hbound, under_bind, under_pure]

/-- A declared name that nothing eclipses is not taken for a well-known one. -/
theorem wellKnown?_of_not_eclipses {d : Declaration} (hlookup : (scope.lookup names).under v = some d)
    (h : ¬ scope.Eclipses names) : (scope.wellKnown? names arguments).under v = none := by
  cases howns : scope.owns names with
  | true => simp only [wellKnown?, howns, if_true, under_pure]
  | false =>
    cases hknown : WellKnown.ofName? (names.getLastD "") (scope.origin? names) with
    | none => simp only [wellKnown?, howns, Bool.false_eq_true, if_false, hknown, under_pure]
    | some known =>
      -- the names stand for nothing by themselves, so that the declaration was found among all names
      -- of a module, where it is looked for
      have horigin : scope.origin? names = none := by
        rw [← Option.not_isSome_iff_eq_none]
        exact fun hsome => h ⟨howns, by rw [hknown]; rfl, hsome⟩
      have hlength := length_eq_one_of_origin?_eq_none horigin
      rw [lookup_eq_lookupInGlobs howns horigin] at hlookup
      rw [horigin] at hknown
      simp only [wellKnown?, howns, Bool.false_eq_true, if_false, hknown, hlength, horigin,
        Option.isNone_none, and_self, if_true, under_bind, hlookup, Option.isSome_some, under_pure]

variable (bindings : Bindings) (leading : Bool) {segments : List (Source.Segment Source.TypeExpr)}

/-- **Declarations and well-known names.** A path that is no type parameter and leads to a declaration
becomes the reference to that declaration, with what its arguments become, if and only if no well-known
name eclipses it. If one does, the path becomes the well-known type. -/
theorem walk_eq_declaration_iff
    (hbound : bound? bindings (segments.map (·.name)) (scope.walkLast bindings segments) = none)
    {d : Declaration} (hlookup : (scope.lookup (segments.map (·.name))).under v = some d) :
    ((scope.walk bindings (.path false ⟨leading, segments⟩)).under v =
        (Instantiation.mk d ((scope.walkLast bindings segments).map (·.under v))).toType ↔
      ¬ scope.Eclipses (segments.map (·.name))) ∧
    (scope.Eclipses (segments.map (·.name)) →
      ∃ known, WellKnown.ofName? ((segments.map (·.name)).getLastD "")
          (scope.origin? (segments.map (·.name))) = some known ∧
        (scope.walk bindings (.path false ⟨leading, segments⟩)).under v =
          (known.toType ((segments.map (·.name)).getLastD "")
            (scope.walkLast bindings segments)).under v) := by
  have hwalk : scope.walk bindings (.path false ⟨leading, segments⟩) =
      scope.named bindings (segments.map (·.name))
        (Source.TypeExpr.path false ⟨leading, segments⟩).render (scope.walkLast bindings segments) := by
    rw [walk]
  rw [hwalk]
  generalize segments.map (·.name) = names at *
  generalize scope.walkLast bindings segments = arguments at *
  -- Under an eclipse the walk answers with the well-known type, whatever the look-up finds.
  have hknown : scope.Eclipses names →
      ∃ known, WellKnown.ofName? (names.getLastD "") (scope.origin? names) = some known ∧
        (scope.named bindings names (Source.TypeExpr.path false ⟨leading, segments⟩).render
          arguments).under v = (known.toType (names.getLastD "") arguments).under v := by
    intro heclipses
    obtain ⟨known, hname, hvalue⟩ := wellKnown?_of_eclipses v arguments heclipses
    exact ⟨known, hname, by simp [named, hbound, hvalue]⟩
  refine ⟨⟨?_, ?_⟩, hknown⟩
  · intro hdeclared heclipses
    obtain ⟨known, -, hvalue⟩ := hknown heclipses
    obtain ⟨type, htype⟩ := known.toType_under v (names.getLastD "") arguments
    -- A well-known type is never the reference of a declaration.
    rw [hdeclared, htype] at hvalue
    cases hvalue
  · intro hfree
    have hnone := wellKnown?_of_not_eclipses v arguments hlookup hfree
    simp [named, hbound, hnone, hlookup]

end FileScope

/-! ## A calendar -/

namespace Calendar

/-- A library with a module that declares a type by the name of a well-known one. -/
def files : Files := .ofSources [("lib.rs", "mod models;"), ("models.rs", "struct Date;")]

/-- The library lies where paths start. -/
def root : FilePath := ⟨""⟩

/-- What the library says at its surface. -/
def lib : FileScope :=
  { path := ⟨"src/lib.rs"⟩, modulePath := "crate", imports := {}, declared := [], children := ["models"] }

/-- What its module says at its surface. -/
def models : FileScope :=
  { path := ⟨"src/models.rs"⟩, modulePath := "crate::models", imports := {}, declared := ["Date"]
    children := [] }

/-- The date as it is written in its module. -/
def date : List (Source.Segment Source.TypeExpr) := [{ name := "Date" }]

/-- The date as it is written in the library. -/
def modelsDate : List (Source.Segment Source.TypeExpr) := [{ name := "models" }, { name := "Date" }]

theorem models_lookup :
    (models.lookup (date.map (·.name))).under (files.view root) = some (models.declaration "Date") := by
  decide +kernel

theorem lib_lookup :
    (lib.lookup (modelsDate.map (·.name))).under (files.view root) =
      some (models.declaration "Date") := by
  decide +kernel

theorem lib_walk :
    ((lib.walk [] (.path false ⟨false, modelsDate⟩)).under (files.view root)).identity = "Date" := by
  decide +kernel

end Calendar

namespace FileScope

open Calendar

/-- In its own module a declared `Date` is that declaration. -/
theorem walk_eq_declaration_iff_calendar :
    (((files.view root).scope models.path).toOption = some models) ∧
      (models.lookup (date.map (·.name))).under (files.view root) = some (models.declaration "Date") ∧
      ¬ models.Eclipses (date.map (·.name)) ∧
      (models.walk [] (.path false ⟨false, date⟩)).under (files.view root) =
        (Instantiation.mk (models.declaration "Date")
          ((models.walkLast [] date).map (·.under (files.view root)))).toType := by
  have hfree : ¬ models.Eclipses (date.map (·.name)) := by decide +kernel
  refine ⟨by decide +kernel, models_lookup, hfree, ?_⟩
  exact (walk_eq_declaration_iff (files.view root) [] false (bound?_nil _ _) models_lookup).1.2 hfree

/-- Not every path that leads to a declaration becomes a reference to it: below the child module `models`
the path `models::Date` is taken for a well-known date. -/
theorem walk_ne_declaration :
    ¬ ∀ (files : Files) (root file : FilePath) (scope : FileScope) (bindings : Bindings) (leading : Bool)
        (segments : List (Source.Segment Source.TypeExpr)) (d : Declaration),
      ((files.view root).scope file).toOption = some scope →
      bound? bindings (segments.map (·.name)) (scope.walkLast bindings segments) = none →
      (scope.lookup (segments.map (·.name))).under (files.view root) = some d →
      (scope.walk bindings (.path false ⟨leading, segments⟩)).under (files.view root) =
        (Instantiation.mk d
          ((scope.walkLast bindings segments).map (·.under (files.view root)))).toType := by
  intro hall
  have hscope : ((files.view root).scope lib.path).toOption = some lib := by decide +kernel
  have hwalk := hall files root lib.path lib [] false modelsDate (models.declaration "Date") hscope
    (bound?_nil _ _) lib_lookup
  have hidentity := congrArg TypeRef.identity hwalk
  -- The walk answers with the date of the library, whose identity is another one.
  rw [lib_walk] at hidentity
  exact absurd hidentity (by decide +kernel)

end FileScope

end PayloadSchema
