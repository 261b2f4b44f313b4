import PayloadSchema.Proofs.Compile.Linked
import PayloadSchema.Proofs.Live.Recognition

/-!
# Both descriptions of a type compile to one schema

What a resolver finds for a written type and what the live type that it spells describes are graphs of
references with identities of quite different makes. In both of them an identity is that of one type: on
the one side since the declarations are unambiguous, on the other since full names tell types apart. So what
is compiled without truncation is a complete expansion on both sides, and linked references have one.

If the declarations are ambiguous, the two descriptions may part: a library and a program with one module
path can both declare a user, and the schema of the one is taken from the cache for the other. They also part
where a well-known name eclipses a declaration.

* `Twins.agrees` — untruncated schemas of both descriptions are equal;
* `not_agrees` — but not if two declarations are known by one name, or if one is eclipsed.
-/

namespace PayloadSchema

open Compile

/-- What an honest resolver loads for a reference is what it stands for. -/
theorem Resolver.Honest.yields_load {files : Files} {root : FilePath} {r : Resolver}
    (hr : r.Honest files root) (t : SourceType) :
    Asking.Yields files root t.fetch (t.load (r.environment files)) := by
  rw [Resolver.load_environment]
  exact (hr.answer t.fetch).1

namespace Twins

variable {files : Files} {root : FilePath} {declarations : String → LiveDeclaration}
  {T : Twins files root declarations} {r : Resolver}

/-! ## What is found in the source -/

/-- A reference that loads what a reference that stands for a live type may load. -/
def Opens (T : Twins files root declarations) (env : Environment Instantiation) (t : SourceType)
    (live : LiveType) : Prop :=
  ∃ t₀, T.Stands t₀ live ∧ t.identity = t₀.identity ∧ Asking.Yields files root t₀.fetch (t.load env)

/-- A reference that stands for a live type opens to it, whatever a resolver remembers. -/
theorem Stands.opens {t : SourceType} {live : LiveType} (h : T.Stands t live) (hr : r.Honest files root) :
    T.Opens (r.environment files) t live :=
  ⟨t, h, rfl, hr.yields_load t⟩

/-- What a reference opens to describes the live type. -/
theorem Opens.describes {env : Environment Instantiation} {t : SourceType} {live : LiveType}
    (h : T.Opens env t live) : (t.load env).identity = t.identity ∧ T.Describes (t.load env) live := by
  obtain ⟨t₀, hstands, hidentity, hyields⟩ := h
  obtain ⟨hsame, hdescribes⟩ := hstands.describes hyields
  exact ⟨hsame.trans hidentity.symm, hdescribes⟩

/-- The references that a resolver comes to. -/
def sourceGraph (T : Twins files root declarations) (hr : r.Honest files root) : TypeGraph Instantiation where
  env := r.environment files
  refs := {t | ∃ live, T.Opens (r.environment files) t live}
  closed := by
    rintro t ⟨live, h⟩ u hu
    obtain ⟨_, -, live', -, hstands⟩ := exists_right_of_mem h.describes.2.shape.mentions hu
    exact ⟨live', hstands.opens hr⟩

/-- In the graph of the sources, what is loaded has the identity of the reference. -/
theorem faithful_sourceGraph (hr : r.Honest files root) : (T.sourceGraph hr).Faithful := by
  rintro t ⟨live, h⟩
  exact h.describes.1

/-- In the graph of the sources, references of one identity load the same. -/
theorem consistent_sourceGraph (hT : Unambiguous T.spellings) (hr : r.Honest files root) :
    (T.sourceGraph hr).Consistent := by
  rintro t ⟨live, h⟩ u ⟨live', h'⟩ hidentity
  obtain ⟨hd, hdescribes⟩ := h.describes
  obtain ⟨hd', -⟩ := h'.describes
  obtain ⟨t₀, hstands, ht, hyields⟩ := h
  obtain ⟨u₀, hstands', hu, hyields'⟩ := h'
  have halike := hstands.isSettled.alike hT hstands'.isSettled hstands.alike hstands'.alike
    (ht.symm.trans (hidentity.trans hu))
  have hsame := TypeRef.fetch_alike halike _ _ hyields hyields'
  rw [Descriptor.outline_eq_iff]
  refine ⟨hd.trans (hidentity.trans hd'.symm), ?_, hsame.description_eq⟩
  have hshape := hsame.shape.mono (fun _ _ h => h) fun _ _ h => h.identity_eq
  exact Shape.rel_iff.1 (hshape.of_supported hdescribes.supported)

/-! ## What live types describe -/

/-- A reference that loads what a live type describes. -/
def Shows (T : Twins files root declarations) (u : TypeRef LiveType) (live : LiveType) : Prop :=
  (∃ t, T.Stands t live) ∧ u.identity = live.name ∧
    u.load (LiveType.environment declarations) = live.descriptor declarations

/-- A live type that is stood for is shown by the reference made of it. -/
theorem Stands.shows {t : SourceType} {live : LiveType} (h : T.Stands t live) : T.Shows live.toRef live :=
  ⟨⟨t, h⟩, rfl, rfl⟩

/-- The references that live types come to. -/
def liveGraph (T : Twins files root declarations) : TypeGraph LiveType where
  env := LiveType.environment declarations
  refs := {u | ∃ live, T.Shows u live}
  closed := by
    rintro u ⟨live, ⟨t, hstands⟩, -, hload⟩ v hv
    rw [hload] at hv
    -- what the live type mentions has a counterpart in what is found in the source
    have hshape := (hstands.describes (Asking.yields_under files root t.fetch)).2.shape
    obtain ⟨_, -, live', rfl, hstands'⟩ := exists_right_of_mem hshape.mentions.flip hv
    exact ⟨live', hstands'.shows⟩

/-- In the graph of live types, what is loaded has the identity of the reference. -/
theorem faithful_liveGraph : T.liveGraph.Faithful := by
  rintro u ⟨live, -, hidentity, hload⟩
  rw [show u.load T.liveGraph.env = _ from hload, hidentity]
  rfl

/-- In the graph of live types, references of one identity load the same. -/
theorem consistent_liveGraph : T.liveGraph.Consistent := by
  rintro u ⟨live, ⟨t, hstands⟩, hu, hload⟩ u' ⟨live', ⟨t', hstands'⟩, hu', hload'⟩ hidentity
  have hname : live.name = live'.name := hu.symm.trans (hidentity.trans hu')
  obtain rfl := LiveType.name_injective hstands.hasProperNames hstands'.hasProperNames hname
  rw [show u.load T.liveGraph.env = _ from hload, show u'.load T.liveGraph.env = _ from hload']

/-! ## Agreement -/

/-- The two graphs are linked by the live types that their references stand for and show. -/
theorem linked (T : Twins files root declarations) (hr : r.Honest files root) :
    Linked (r.environment files) (LiveType.environment declarations)
      fun t u => ∃ live, T.Opens (r.environment files) t live ∧ T.Shows u live where
  -- What is loaded on either side describes the same live type.
  description := by
    rintro t u ⟨live, h, -, -, hload⟩
    rw [hload]
    exact h.describes.2.description
  shape := by
    rintro t u ⟨live, h, -, -, hload⟩
    rw [hload]
    refine h.describes.2.shape.mono (fun _ _ h => h) ?_
    rintro t' _ ⟨live', rfl, hstands⟩
    exact ⟨live', hstands.opens hr, hstands.shows⟩
  keys := by
    rintro t u ⟨live, h, -, -, hload⟩
    rw [hload]
    exact ⟨h.describes.2.key _, h.describes.2.liveKey⟩

/-- Outside of declarations nothing is bound. -/
theorem binds_nil : T.Binds [] none where
  other _ _ := rfl
  self _ h := by cases h

/-- A type expression is resolved: what is found is what a reference loads that stands for the live type
which the expression spells. -/
theorem yields_resolveExpression {file : FilePath} {text : String} {live : LiveType}
    (h : T.Spelled file text live) {result : Except Failure (Descriptor SourceType)}
    (hresult : Asking.Yields files root (resolveExpression file text) result) :
    ∃ d t, result = .ok d ∧ T.Stands t live ∧ Asking.Yields files root t.fetch d := by
  obtain ⟨type, scope, htext, hscope, h⟩ := h
  -- The scope was read, so the file is there and any memory of it is alike.
  have hfile : files.isFile file = true := by
    rcases Source.ofFile_cases files file with ⟨-, what, hread⟩ | ⟨hfile, -⟩ | ⟨hfile, -⟩
    · rw [show (files.view root).scope file = FileScope.ofFile files root file from rfl, FileScope.ofFile,
        hread] at hscope
      cases hscope
    · exact hfile
    · exact hfile
  unfold resolveExpression at hresult
  rw [htext] at hresult
  obtain ⟨answer, hanswer, hresult⟩ := Asking.yields_bind.1 hresult
  have halike := Asking.scopeOf_alike_of_isFile (.refl hfile) _ _ (Asking.yields_under files root _) hanswer
  rw [Asking.under_scopeOf, hscope] at halike
  cases halike with
  | ok halike =>
    obtain ⟨t, ht, hresult⟩ := Asking.yields_bind.1 hresult
    obtain ⟨d, hd, hresult⟩ := Asking.yields_bind.1 hresult
    have hstands := h.stands halike binds_nil ht
    refine ⟨d, t, ?_, hstands, hd⟩
    rw [Asking.yields_pure.1 hresult]
    unfold outcome
    -- The type stands for a live one, so its descriptor is supported.
    split
    next reason hshape => exact absurd hshape ((hstands.describes hd).2.supported reason)
    next => rfl

/-- What a reference loads and what the live type describes that it stands for compile to one schema. -/
theorem compile_eq (hT : Unambiguous T.declared) (hr : r.Honest files root) {t : SourceType}
    {live : LiveType} (hstands : T.Stands t live) {d : Descriptor SourceType}
    (hd : Asking.Yields files root t.fetch d) (policy : RequiredPolicy) {maxDepth maxDepth' : Nat}
    (h : (compile (r.environment files) policy d (fresh maxDepth [])).2.context.isTruncated = false)
    (h' : (compile (LiveType.environment declarations) policy (live.descriptor declarations)
      (fresh maxDepth' [])).2.context.isTruncated = false) :
    (compile (r.environment files) policy d (fresh maxDepth [])).1 =
      (compile (LiveType.environment declarations) policy (live.descriptor declarations)
        (fresh maxDepth' [])).1 := by
  have hopens : T.Opens (r.environment files) (.ready d) live :=
    ⟨t, hstands, (hstands.describes hd).1, hd⟩
  have hshows : T.Shows (.ready (live.descriptor declarations)) live := ⟨⟨t, hstands⟩, rfl, rfl⟩
  -- Untruncated runs give the complete expansions, and linked references have the same one.
  have hcomplete := TypeGraph.complete_of_not_truncated (faithful_sourceGraph hr)
    (consistent_sourceGraph (unambiguous_spellings hT) hr) ⟨live, hopens⟩ h
  have hcomplete' := TypeGraph.complete_of_not_truncated faithful_liveGraph consistent_liveGraph
    ⟨live, hshows⟩ h'
  exact (T.linked hr).complete_eq hcomplete ⟨live, hopens, hshows⟩ hcomplete'

end Twins

/-- The schemas of a written type and of a live type are equal: the written type is resolved, and for either
policy and any limits of depth, what is compiled from nothing and not truncated is one schema. -/
def Agrees (files : Files) (declarations : String → LiveDeclaration) (r : Resolver) (file : FilePath)
    (text : String) (live : LiveType) : Prop :=
  ∃ d r', Resolver.answer files (resolveExpression file text) r = (.ok d, r') ∧
    ∀ (policy : RequiredPolicy) (maxDepth maxDepth' : Nat),
      let found := (r'.compile files policy maxDepth d []).1
      let described := compile (LiveType.environment declarations) policy
        ((LiveHandle.typed live).descriptor declarations) (fresh maxDepth' [])
      found.2.context.isTruncated = false → described.2.context.isTruncated = false →
        found.1 = described.1

namespace Twins

variable {files : Files} {root : FilePath} {declarations : String → LiveDeclaration}

/-- **The two strategies agree** on every type that is written and alive, if the declarations are
unambiguous. -/
theorem agrees (T : Twins files root declarations) (hT : Unambiguous T.declared)
    (past : List Resolver.Request) {file : FilePath} {text : String} {live : LiveType}
    (h : T.Spelled file text live) :
    Agrees files declarations ((Resolver.ofRoot root).after files past) file text live := by
  have hpast := (Resolver.honest_ofRoot files root).after past
  obtain ⟨hyields, hr⟩ := hpast.answer (resolveExpression file text)
  obtain ⟨d, t, hd, hstands, hfetch⟩ := yields_resolveExpression h hyields
  refine ⟨d, _, Prod.ext hd rfl, ?_⟩
  intro policy maxDepth maxDepth'
  exact compile_eq hT hr hstands hfetch policy

end Twins

/-! ## An almanac and a ledger -/

/-- What becomes of a written type and of a live type at some levels, if the written type is resolved. -/
def compileBoth (files : Files) (declarations : String → LiveDeclaration) (r : Resolver) (file : FilePath)
    (text : String) (live : LiveType) (levels : Nat) :
    Option ((Schema × Session Instantiation) × (Schema × Session LiveType)) :=
  match Resolver.answer files (resolveExpression file text) r with
  | (.ok d, r') =>
    some ((r'.compile files .tagged levels d []).1,
      compile (LiveType.environment declarations) .tagged ((LiveHandle.typed live).descriptor declarations)
        (fresh levels []))
  | (.error _, _) => none

/-- Whether both are untruncated. -/
def areWhole (both : (Schema × Session Instantiation) × (Schema × Session LiveType)) : Bool :=
  !both.1.2.context.isTruncated && !both.2.2.context.isTruncated

/-- Where untruncated schemas differ, the descriptions do not agree. -/
theorem not_agrees_of_whole {files : Files} {declarations : String → LiveDeclaration} {r : Resolver}
    {file : FilePath} {text : String} {live : LiveType} (levels : Nat)
    (h : ∃ both ∈ compileBoth files declarations r file text live levels, areWhole both = true ∧
      Schema.same both.1.1 both.2.1 ≠ Schema.same both.2.1 both.2.1) :
    ¬ Agrees files declarations r file text live := by
  rintro ⟨d, r', hanswer, hall⟩
  obtain ⟨both, hboth, hwhole, hne⟩ := h
  simp only [compileBoth, hanswer, Option.mem_def, Option.some.injEq] at hboth
  subst hboth
  simp only [areWhole, Bool.and_eq_true, Bool.not_eq_true'] at hwhole
  have hsame := hall .tagged levels levels hwhole.1 hwhole.2
  exact hne (congrArg (Schema.same · _) hsame)

namespace Almanac

/-- A library with events and their dates; a date has the name of a well-known type. -/
def project : Files :=
  .ofSources [("lib.rs",
    "struct Date { day: u8 } " ++
    "#[serde(rename_all = \"camelCase\")] " ++
    "struct Event \x7b all_day: bool, #[serde(rename = \"on\")] days: Vec<Date>, note: Option<String> \x7d")]

/-- The library lies where paths start. -/
def home : FilePath := ⟨""⟩

def lib : FilePath := ⟨"src/lib.rs"⟩

/-- How dates and events describe themselves. -/
def declarations (name : String) : LiveDeclaration :=
  if name = "almanac::Date" then
    .record [] [{ name := "day", type := .scalar .u8, tags := [] }]
  else
    .record ["serde(rename_all = \"camelCase\")"]
      [{ name := "all_day", type := .scalar .bool, tags := [] },
        { name := "days", type := .list .vec (.declared "almanac::Date"), tags := ["serde(rename = \"on\")"] },
        { name := "note", type := .option (.scalar .string), tags := [] }]

/-- Dates and events are written and alive. -/
def twins : Twins project home declarations :=
  .ofPairs [(⟨lib, "crate", "Date"⟩, "almanac::Date"), (⟨lib, "crate", "Event"⟩, "almanac::Event")]
    (by decide +kernel) (by decide +kernel)

instance (d : Declaration) (name : String) : Decidable (twins.pairs d name) :=
  inferInstanceAs (Decidable ((d, name) ∈ [_, _]))

theorem unambiguous_twins : Unambiguous twins.declared :=
  Twins.unambiguous_ofPairs (by decide +kernel) (by decide +kernel) (by decide +kernel)

end Almanac

namespace Ledger

/-- A library and a program in one directory, both of which declare a user; a pair has one of each. -/
def project : Files where
  root := .directory [("billing", .directory [("src", .directory
    [("lib.rs", .ofText "struct User { id: u64 }"),
      ("main.rs", .ofText "struct User { name: String } struct Pair { first: User, second: billing::User }")])])]
  start := []

/-- The directory lies where paths start. -/
def home : FilePath := ⟨""⟩

def lib : FilePath := ⟨"billing/src/lib.rs"⟩

/-- The file of the program. -/
def main : FilePath := ⟨"billing/src/main.rs"⟩

/-- How both users and a pair of them describe themselves. -/
def declarations (name : String) : LiveDeclaration :=
  if name = "billing::User" then
    .record [] [{ name := "id", type := .scalar .u64, tags := [] }]
  else if name = "main::User" then
    .record [] [{ name := "name", type := .scalar .string, tags := [] }]
  else
    .record []
      [{ name := "first", type := .declared "main::User", tags := [] },
        { name := "second", type := .declared "billing::User", tags := [] }]

/-- Users and pairs are written and alive. -/
def twins : Twins project home declarations :=
  .ofPairs [(⟨lib, "billing", "User"⟩, "billing::User"), (⟨main, "billing", "User"⟩, "main::User"),
    (⟨main, "billing", "Pair"⟩, "main::Pair")] (by decide +kernel) (by decide +kernel)

instance (d : Declaration) (name : String) : Decidable (twins.pairs d name) :=
  inferInstanceAs (Decidable ((d, name) ∈ [_, _, _]))

end Ledger

/-- A list of events that may be missing, as it is written in the library and as a live set of them. -/
theorem Twins.agrees_almanac :
    Unambiguous Almanac.twins.declared ∧
      Almanac.twins.Spelled Almanac.lib "Vec<Option<Event>>"
        (.list .hashSet (.option (.declared "almanac::Event"))) ∧
      (∃ both ∈ compileBoth Almanac.project Almanac.declarations (Resolver.ofRoot Almanac.home) Almanac.lib
        "Vec<Option<Event>>" (.list .hashSet (.option (.declared "almanac::Event"))) 8,
          areWhole both = true) ∧
      Agrees Almanac.project Almanac.declarations ((Resolver.ofRoot Almanac.home).after Almanac.project [])
        Almanac.lib "Vec<Option<Event>>" (.list .hashSet (.option (.declared "almanac::Event"))) := by
  have hspelled : Almanac.twins.Spelled Almanac.lib "Vec<Option<Event>>"
      (.list .hashSet (.option (.declared "almanac::Event"))) := by decide +kernel
  refine ⟨Almanac.unambiguous_twins, hspelled, by decide +kernel, ?_⟩
  exact Twins.agrees Almanac.twins Almanac.unambiguous_twins [] hspelled

/-- The descriptions do not agree everywhere. In the ledger both users are known by one name, and a pair gets
the user of the program twice. In the almanac the declaration of a date is what `self::Date` leads to, but
the name is taken for that of the well-known date. -/
theorem not_agrees :
    (¬ ∀ (files : Files) (root : FilePath) (declarations : String → LiveDeclaration)
        (T : Twins files root declarations) (past : List Resolver.Request) (file : FilePath) (text : String)
        (live : LiveType), T.Spelled file text live →
      Agrees files declarations ((Resolver.ofRoot root).after files past) file text live) ∧
    (¬ ∀ (files : Files) (root : FilePath) (declarations : String → LiveDeclaration)
        (T : Twins files root declarations) (past : List Resolver.Request) (file : FilePath) (text : String)
        (scope : FileScope) (leading : Bool) (before : List (Source.Segment Source.TypeExpr))
        (last : Source.Segment Source.TypeExpr) (d : Declaration) (name : String),
      Unambiguous T.declared →
      Source.TypeExpr.ofText? text = some (.path false ⟨leading, before ++ [last]⟩) → last.types = [] →
      ((files.view root).scope file).toOption = some scope →
      (scope.lookup (FileScope.namesOf before last)).under (files.view root) = some d → T.pairs d name →
      Agrees files declarations ((Resolver.ofRoot root).after files past) file text (.declared name)) := by
  constructor
  · intro hall
    have hspelled : Ledger.twins.Spelled Ledger.main "Pair" (.declared "main::Pair") := by decide +kernel
    have hagrees := hall Ledger.project Ledger.home Ledger.declarations Ledger.twins [] Ledger.main "Pair"
      (.declared "main::Pair") hspelled
    exact not_agrees_of_whole 8 (by decide +kernel) hagrees
  · intro hall
    -- Here the declarations are unambiguous, and the name is taken for the one of the library.
    obtain ⟨scope, hscope, hlookup⟩ :
        ∃ scope ∈ ((Almanac.project.view Almanac.home).scope Almanac.lib).toOption,
          (scope.lookup ["self", "Date"]).under (Almanac.project.view Almanac.home) =
            some ⟨Almanac.lib, "crate", "Date"⟩ := by
      decide +kernel
    have hagrees := hall Almanac.project Almanac.home Almanac.declarations Almanac.twins [] Almanac.lib
      "self::Date" scope false [{ name := "self" }] { name := "Date" } _ "almanac::Date"
      Almanac.unambiguous_twins (by rfl) rfl hscope hlookup (by decide +kernel)
    exact not_agrees_of_whole 8 (by decide +kernel) hagrees

end PayloadSchema
