import PayloadSchema.Proofs.Compile.Names
import PayloadSchema.Proofs.Compile.Repetition

/-!
# Placeholders of cuts

Where a guard fires a placeholder is answered. On its way up a description may be added, the constraints of a
field are put on it, it becomes an element, a value, a payload or a property, and what it is in may be taken
apart where a field is flattened. None of this hides it: it keeps its description and has no structure that
could be merged, and a schema that is merged has nothing inside but its properties. Only another property
of the same name could replace it.

* `Shows` — the placeholder of a cut stands in a schema, also if the schema is merged into a record;
* `shows_build` — a schema that is made of answers shows what one of them shows;
* `Fires.shows` — what is answered shows every cut;
* `run_shows_cuts` — the same for a call from outside, where no two fields may contribute one name;
* `run_hides_cuts` — calls that hide a cut, though names are distinct in complete schemas.
-/

namespace PayloadSchema

open Compile (Cut)

namespace Schema

/-! ## The placeholder of a cut -/

/-- The placeholder that a guard leaves for an identity: it is recognized as one, and says what was cut. -/
structure IsCut (cut : Cut) (X : String) (s : Schema) : Prop where
  recognized : s.isGuardPlaceholder = true
  description : s.description = (cut.placeholder X).description

variable {cut : Cut} {X : String} {s s' : Schema}

/-- A placeholder is recognized by its description, and has nothing inside. -/
theorem isGuardPlaceholder_iff : s.isGuardPlaceholder = true ↔
    s.properties = none ∧ s.items = none ∧ s.additional = none ∧ s.description.any isGuardMark = true := by
  simp [isGuardPlaceholder, and_assoc]

/-- The placeholder of a guard is recognized as one. -/
theorem isCut_placeholder (cut : Cut) (X : String) : IsCut cut X (cut.placeholder X) := by
  refine ⟨?_, rfl⟩
  cases cut with
  | depth => rfl
  | circle =>
      -- the text begins with the mark, whatever the identity is
      have hmark : circularMark.toList <+: (circularMark ++ " " ++ X).toList := by
        rw [String.append_assoc, String.toList_append]
        exact List.prefix_append _ _
      rw [isGuardPlaceholder_iff]
      refine ⟨rfl, rfl, rfl, ?_⟩
      show isGuardMark (circularMark ++ " " ++ X) = true
      unfold isGuardMark
      rw [List.isPrefixOf_iff_prefix.2 hmark, Bool.true_or]

/-- What has the structure and the description of a placeholder is one. -/
theorem IsCut.congr (h : IsCut cut X s) (hs : SameStructure s s')
    (hdescription : s'.description = s.description) : IsCut cut X s' := by
  obtain ⟨hrecognized, hsays⟩ := h
  rw [isGuardPlaceholder_iff] at hrecognized
  refine ⟨?_, hdescription.trans hsays⟩
  rwa [isGuardPlaceholder_iff, hs.properties, hs.items, hs.additional, hdescription]

/-- Schemas of one structure hold the same inside, and show the same if none is a placeholder that the other
one is not. -/
theorem Somewhere.congr {P : Schema → Prop} (h : s.Somewhere P) (hs : SameStructure s s')
    (hP : P s → P s') : s'.Somewhere P := by
  cases h with
  | here h => exact .here (hP h)
  | inside ht h =>
      rw [← hs.children_eq] at ht
      exact .inside ht h

/-- The description of a placeholder is not replaced by that of a field. -/
theorem description_constrain (m : FieldMetadata) (h : s.isGuardPlaceholder = true) :
    (m.constrain s).description = s.description := by
  unfold FieldMetadata.constrain
  simp only [h, if_true]

/-- The constraints of a field hide no cut. -/
theorem Somewhere.constrain (h : s.Somewhere (IsCut cut X)) (m : FieldMetadata) :
    (m.constrain s).Somewhere (IsCut cut X) :=
  h.congr (sameStructure_constrain m s) fun hcut =>
    hcut.congr (sameStructure_constrain m s) (description_constrain m hcut.recognized)

end Schema

open Schema (IsCut SameStructure)

namespace Compile

variable {ρ : Type}

/-! ## Schemas that show a cut -/

/-- The placeholder of a cut stands somewhere in a schema, and a schema with properties, which may be merged
into a record, has nothing else inside. -/
structure Shows (cut : Cut) (X : String) (s : Schema) : Prop where
  somewhere : s.Somewhere (IsCut cut X)
  whole : s.properties.isSome = true → s.items = none ∧ s.additional = none

section

variable {cut : Cut} {X : String} {s s' : Schema}

theorem shows_placeholder (cut : Cut) (X : String) : Shows cut X (cut.placeholder X) := by
  refine ⟨.here (Schema.isCut_placeholder cut X), ?_⟩
  intro hsome
  cases cut with
  | circle => cases hsome
  | depth => cases hsome

/-- What shows a cut still does so when it is changed without its structure, if a placeholder keeps its
description. -/
theorem Shows.congr (h : Shows cut X s) (hs : SameStructure s s')
    (hdescription : s.isGuardPlaceholder = true → s'.description = s.description) : Shows cut X s' := by
  have hsomewhere : s'.Somewhere (IsCut cut X) := by
    apply h.somewhere.congr hs
    intro hcut
    exact hcut.congr hs (hdescription hcut.recognized)
  refine ⟨hsomewhere, ?_⟩
  rw [hs.properties, hs.items, hs.additional]
  exact h.whole

/-- An array shows what its elements show. -/
theorem Shows.array (h : Shows cut X s) : Shows cut X (.array s) := by
  refine ⟨.inside (Schema.mem_children_iff.2 (.inr (.inl rfl))) h.somewhere, ?_⟩
  intro hsome
  cases hsome

/-- An object with free keys shows what its values show. -/
theorem Shows.map (h : Shows cut X s) : Shows cut X (.map s) := by
  refine ⟨.inside (Schema.mem_children_iff.2 (.inr (.inr rfl))) h.somewhere, ?_⟩
  intro hsome
  cases hsome

/-- An object shows what one of its properties shows. -/
theorem shows_object {properties : List (String × Schema)} (required : List String)
    {e : String × Schema} (he : e ∈ properties) (h : e.2.Somewhere (IsCut cut X)) :
    Shows cut X (.object properties required) :=
  ⟨.inside (Schema.mem_children_of_mem_properties rfl he) h, fun _ => ⟨rfl, rfl⟩⟩

/-- A description that is added does not replace that of a placeholder. -/
theorem Shows.describe (h : Shows cut X s) (description : Option String) :
    Shows cut X (describe s description) := by
  refine h.congr ⟨rfl, rfl, rfl, rfl, rfl⟩ ?_
  intro hguard
  obtain ⟨-, -, -, hmark⟩ := Schema.isGuardPlaceholder_iff.1 hguard
  unfold Compile.describe
  cases hdescription : s.description with
  | none =>
      rw [hdescription] at hmark
      cases hmark
  | some text => rfl

/-- One of the entries that a field puts into a record shows what the schema of its type shows. -/
theorem Shows.exists_entry {e : Answered ρ} (h : Shows cut X e.2) (casing : Option Casing) :
    ∃ entry ∈ e.entries casing, entry.2.Somewhere (IsCut cut X) := by
  unfold Answered.entries
  by_cases hmerged : e.Merged
  · rw [if_pos hmerged]
    obtain ⟨hitems, hadditional⟩ := h.whole hmerged.2
    -- a schema that is merged is no placeholder, and has only properties inside
    cases h.somewhere with
    | here hcut =>
        have hsome := hmerged.2
        rw [(Schema.isGuardPlaceholder_iff.1 hcut.recognized).1] at hsome
        cases hsome
    | inside ht hinside =>
        rw [Schema.mem_children_iff, hitems, hadditional] at ht
        rcases ht with ⟨entry, hentry, rfl⟩ | ht | ht
        · exact ⟨entry, hentry, hinside⟩
        · cases ht
        · cases ht
  · rw [if_neg hmerged]
    exact ⟨_, List.mem_singleton_self _, h.somewhere.constrain e.1.metadata⟩

end

/-! ## Schemas that are made of answers -/

section

variable {cut : Cut} {X : String} {s : Schema} {answers : List Schema}

/-- A record shows what one of the answers for its fields shows, if no two fields contribute one name. -/
theorem shows_record (policy : RequiredPolicy) (casing : Option Casing) {fields : List (Field (TypeRef ρ))}
    (hlength : fields.length = answers.length)
    (hdistinct : ((fields.zip answers).flatMap (Answered.contributed casing)).Nodup)
    (hs : s ∈ answers) (h : Shows cut X s) :
    Shows cut X (.object (assembleMembers policy casing fields answers {}).properties
      (assembleMembers policy casing fields answers {}).required) := by
  obtain ⟨field, hfield⟩ := exists_mem_zip hlength hs
  obtain ⟨entry, hentry, hsomewhere⟩ := Shows.exists_entry (e := (field, s)) h casing
  have hput : entry ∈ (fields.zip answers).flatMap (Answered.entries casing) :=
    List.mem_flatMap.2 ⟨(field, s), hfield, hentry⟩
  rw [← keys_flatMap_entries] at hdistinct
  refine shows_object _ ?_ hsomewhere
  rw [assembleMembers_eq]
  exact Dictionary.mem_insertAll_of_nodup_keys Dictionary.ascending_nil hdistinct hput

/-- Each answer is a property of the enumeration if the variants have names of their own. -/
theorem mem_assembleProperties {variants : List (Variant (TypeRef ρ))}
    (hlength : variants.length = answers.length) (hdistinct : (variants.map (·.name)).Nodup)
    (hs : s ∈ answers) : ∃ name, (name, s) ∈ assembleProperties variants answers [] := by
  obtain ⟨v, hv⟩ := exists_mem_zip hlength hs
  -- The variants' names are distinct, so no later entry takes the place of this one.
  have hkeys : Dictionary.keys ((variants.zip answers).map fun e => (e.1.name, e.2)) =
      variants.map (·.name) := by
    calc Dictionary.keys ((variants.zip answers).map fun e => (e.1.name, e.2))
        = ((variants.zip answers).map (·.1)).map (·.name) := by
          unfold Dictionary.keys
          rw [List.map_map, List.map_map]
          rfl
      _ = variants.map (·.name) := by rw [List.map_fst_zip (Nat.le_of_eq hlength)]
  rw [← hkeys] at hdistinct
  have hmem : (v.name, s) ∈ (variants.zip answers).map fun e => (e.1.name, e.2) :=
    List.mem_map.2 ⟨(v, s), hv, rfl⟩
  refine ⟨v.name, ?_⟩
  rw [assembleProperties_eq]
  exact Dictionary.mem_insertAll_of_nodup_keys Dictionary.ascending_nil hdistinct hmem

/-- An enumeration shows what one of the answers for its payloads shows, if the variants have names of their
own. -/
theorem shows_enumeration (policy : RequiredPolicy) (isKey : Bool) {variants : List (Variant (TypeRef ρ))}
    (hlength : (Shape.enumeration variants).parts.length = answers.length)
    (hdistinct : (variants.map (·.name)).Nodup) (hs : s ∈ answers) (h : Shows cut X s) :
    Shows cut X (assemble policy isKey (.enumeration variants) answers) := by
  have hpayloads : (variants.filter (·.payload.isSome)).length = answers.length := by
    rw [← hlength, Shape.parts, List.length_filterMap_eq_countP, List.countP_eq_length_filter]
  have hnames : ((variants.filter (·.payload.isSome)).map (·.name)).Nodup :=
    hdistinct.sublist (List.filter_sublist.map _)
  obtain ⟨name, hmem⟩ := mem_assembleProperties hpayloads hnames hs
  dsimp only [assemble]
  split
  next hnone =>
    -- without payloads there are no answers
    have hempty : variants.filter (·.payload.isSome) = [] := by
      rw [List.filter_eq_nil_iff]
      intro v hv hsome
      have hisNone := List.all_eq_true.1 hnone v hv
      rw [Option.isNone_iff_eq_none.1 hisNone] at hsome
      cases hsome
    rw [hempty] at hmem
    cases hmem
  next =>
    refine (shows_object [] hmem h.somewhere).congr (Schema.sameStructure_withDescription _ _) ?_
    intro hguard
    cases hguard

/-- An answer for the only part is the only answer. -/
theorem eq_singleton_of_mem {α : Type} {t : α} (hlength : [t].length = answers.length) (hs : s ∈ answers) :
    answers = [s] := by
  obtain ⟨a, rfl⟩ := List.length_eq_one_iff.1 hlength.symm
  rw [List.mem_singleton.1 hs]

/-- The schema of a descriptor shows what one of the answers that it is made of shows. -/
theorem shows_build (env : Environment ρ) (policy : RequiredPolicy) {d : Descriptor (TypeRef ρ)}
    (hlength : d.shape.parts.length = answers.length) (hdistinct : DistinctNames d.shape answers)
    (hs : s ∈ answers) (h : Shows cut X s) : Shows cut X (build env policy d answers) := by
  refine Shows.describe ?_ d.description
  generalize hasTextKey env d.shape = isKey
  generalize d.shape = shape at hlength hdistinct ⊢
  cases shape with
  | record fields casing =>
      rw [Shape.parts, List.length_map] at hlength
      exact shows_record policy casing hlength hdistinct hs h
  | list element =>
      obtain rfl := eq_singleton_of_mem hlength hs
      exact h.array
  | map key value =>
      obtain rfl := eq_singleton_of_mem hlength hs
      dsimp only [assemble]
      split
      · exact h.map
      · -- a map is no placeholder, so that the remark on its keys replaces nothing
        refine h.map.congr (Schema.sameStructure_withDescription _ _) ?_
        intro hguard
        cases hguard
  | pointer target optional =>
      obtain rfl := eq_singleton_of_mem hlength hs
      exact h
  | enumeration variants => exact shows_enumeration policy isKey hlength hdistinct hs h
  | _ =>
      rw [List.eq_nil_of_length_eq_zero hlength.symm] at hs
      cases hs

end

/-! ## Calls -/

/-- Wherever something is expanded, by a call or by a call inside, the names of properties are distinct. -/
def DistinctInside (env : Environment ρ) (policy : RequiredPolicy) (t : TypeRef ρ) (session : Session ρ) :
    Prop :=
  ∀ u inside, CallsInside env policy (t, session) (u, inside) →
    cached? policy u.identity inside.cache = none → cut? u.identity inside.context = none →
      DistinctNames (u.load env).shape
        (askAll (compileRef env policy) (u.load env).shape.parts (enterRef env u inside)).1

/-- No two fields of a record contribute one name in any call over a cache that was filled by calls, if no two
may. -/
theorem distinctInside_of_distinct {G : TypeGraph ρ} (hG : G.Distinct) (policy : RequiredPolicy) {t : TypeRef ρ}
    (ht : t ∈ G.refs) {session : Session ρ} (hcache : Filled G session.cache) :
    DistinctInside G.env policy t session := by
  intro u inside hinside _ _
  -- before the call inside the cache has no other names than before the call
  obtain ⟨hu, hcache'⟩ := hinside.cachedFor (R := (· ∈ G.refs)) (fun v hv => TypeGraph.mem_of_mem_parts hv)
    (fun v hv deeper hdeeper => compileRef_named hv deeper hdeeper) ht hcache.named
  have hparts := TypeGraph.mem_of_mem_parts hu
  obtain ⟨hanswers, -⟩ := askAll_each G.env (enterRef G.env u inside)
    (fun v hv deeper _ hdeeper => compileRef_named (hparts v hv) deeper hdeeper) hcache'
  exact hG.distinctNames hu hanswers

/-- What is answered shows every cut. -/
theorem Fires.shows {env : Environment ρ} {policy : RequiredPolicy} {t : TypeRef ρ} {session : Session ρ}
    {cut : Cut} {X : String} (h : Fires env policy t session cut X)
    (hdistinct : DistinctInside env policy t session) :
    Shows cut X (compileRef env policy t session).1 := by
  induction h with
  | here hcached hcut =>
      rw [compileRef_of_cut env hcached hcut]
      exact shows_placeholder _ _
  | @inside t u session cut X before after hcached hopen hparts _ ih =>
      -- The call that fires is made inside this one, so the names are distinct there as well.
      have hasks : Asks env policy (t, session)
          (u, (askAll (compileRef env policy) before (enterRef env t session)).2) :=
        .part hcached hopen hparts
      have hanswer := ih fun v inside hcalls => hdistinct v inside (hcalls.head hasks)
      have hmem := mem_askAll (compileRef env policy) before after u (enterRef env t session)
      rw [← hparts] at hmem
      rw [compileRef_of_open env hcached hopen]
      exact shows_build env policy (length_askAll _ _ _).symm (hdistinct t session .refl hcached hopen)
        hmem hanswer

/-- **No cut is silent.** Let no two fields of a record in a graph be such that both may contribute one name to
it, and let the variants of an enumeration have names of their own. Then for any policy and session, over a
cache that was filled by earlier calls, and for every guard that fires during a call, its placeholder stands
somewhere in what is returned. So if guards have fired more often after the call, there is a placeholder. -/
theorem run_shows_cuts (G : TypeGraph ρ) (hdistinct : G.Distinct) (policy : RequiredPolicy) (r : Request ρ)
    (hr : r.root ∈ G.refs) (session : Session ρ) (hcache : Filled G session.cache) :
    ((r.run G.env policy session).2.context.guardHits ≠ session.context.guardHits →
      (r.run G.env policy session).1.Somewhere (·.isGuardPlaceholder = true)) ∧
    ∀ cut X, Fires G.env policy r.root session cut X →
      (r.run G.env policy session).1.Somewhere (IsCut cut X) := by
  have hinside := distinctInside_of_distinct hdistinct policy hr hcache
  rw [Request.run_eq]
  constructor
  · intro hhits
    -- if no guard fired there would be no more hits
    obtain ⟨cut, X, h⟩ : ∃ cut X, Fires G.env policy r.root session cut X := by
      by_contra hnone
      refine hhits (guardHits_of_not_fires G.env policy r.root session ?_)
      intro cut X h
      exact hnone ⟨cut, X, h⟩
    exact (h.shows hinside).somewhere.mono fun _ hcut => hcut.recognized
  · intro cut X h
    exact (h.shows hinside).somewhere

/-! ## An account -/

namespace Account

/-- The account, which is loaded on demand. -/
def self : TypeRef Unit := .deferred "Account" ()

/-- A note about an account, with a description of the account that it is about. -/
def audit : TypeRef Unit :=
  .ready (.record "Audit"
    [{ name := "subject", type := self, metadata := { description := some "what was audited" } },
      { name := "note", type := Tree.text }] none)

/-- An account has a name, and a note that is merged into it. -/
def env : Environment Unit where
  load _ := .record "Account"
    [{ name := "name", type := Tree.text },
      { name := "audit", type := audit, metadata := { flatten := true } }] none

theorem closed : ∀ t ∈ [self, audit, Tree.text], ∀ u ∈ (t.load env).shape.mentions,
    u ∈ [self, audit, Tree.text] :=
  TypeGraph.closed_of_places [[2, 1], [0, 2], []] rfl

/-- The references of an account. -/
def graph : TypeGraph Unit := .ofList env [self, audit, Tree.text] closed

/-- The names that the types may have. -/
def names : Dictionary (List String) :=
  [("Account", ["name", "audit", "subject", "note"]), ("Audit", ["subject", "note"])]

/-- The fields of an account and those of the note have four names. -/
theorem distinct : graph.Distinct := by
  refine TypeGraph.distinct_ofList names (by decide +kernel) ?_ (by decide +kernel)
  intro t ht u hu policy policy'
  revert t u
  cases policy <;> cases policy' <;> decide +kernel

end Account

/-- The account inside its own note is cut off. Its placeholder has a description for the field, and the note is
merged, but it is there, also over the cache that the call before has left. -/
theorem run_shows_cuts_account :
    Account.graph.Distinct ∧ Account.self ∈ Account.graph.refs ∧
      let first := compileRef Account.env .tagged Account.self (fresh 10 [])
      let second := compileRef Account.env .nonOptional Account.self (fresh 3 first.2.cache)
      Filled Account.graph first.2.cache ∧ second.2.context.guardHits ≠ 0 ∧
        second.1.Somewhere (·.isGuardPlaceholder = true) := by
  have hmem : Account.self ∈ Account.graph.refs := List.mem_cons_self
  have hfilled : Filled Account.graph (compileRef Account.env .tagged Account.self (fresh 10 [])).2.cache :=
    .call .tagged (.reference Account.self) hmem (fresh 10 []) .nil
  obtain ⟨hshown, -⟩ := run_shows_cuts Account.graph Account.distinct .nonOptional (.reference Account.self) hmem
    (fresh 3 (compileRef Account.env .tagged Account.self (fresh 10 [])).2.cache) hfilled
  -- The first run leaves no entry for the other policy, so the second meets its limit.
  have hhits : (compileRef Account.env .nonOptional Account.self (fresh 3
      (compileRef Account.env .tagged Account.self (fresh 10 [])).2.cache)).2.context.guardHits ≠ 0 := by
    decide +kernel
  exact ⟨Account.distinct, hmem, hfilled, hhits, hshown hhits⟩

/-! ## Cuts that are hidden -/

/-- With the complete schemas of the types of its fields, no two fields of a record contribute one name, and the
variants of an enumeration have names of their own. -/
def DistinctComplete (G : TypeGraph ρ) (policy : RequiredPolicy) : Prop :=
  ∀ t ∈ G.refs, ∀ answers, List.Forall₂ (Complete G.env policy) (t.load G.env).shape.parts answers →
    DistinctNames (t.load G.env).shape answers

/-- The condition is checked by complete expansions within so many levels. -/
theorem distinctComplete_ofList {env : Environment ρ} {policy : RequiredPolicy} {ts : List (TypeRef ρ)}
    {closed : ∀ t ∈ ts, ∀ u ∈ (t.load env).shape.mentions, u ∈ ts} (levels : Nat)
    (h : ∀ t ∈ ts, ((t.load env).shape.parts.mapM (completeWithin env policy levels)).any
      (fun answers => decide (DistinctNames (t.load env).shape answers)) = true) :
    DistinctComplete (.ofList env ts closed) policy := by
  intro t ht answers hanswers
  obtain ⟨answers', hanswers', hdistinct⟩ := (Option.any_eq_true _ _).1 (h t ht)
  have heq : answers = answers' :=
    eq_of_mapM_completeWithin (hanswers.imp fun _ _ hs _ => hs.eq_of_completeWithin) hanswers'
  rw [heq]
  exact of_decide_eq_true hdistinct

/-- A guard fires in a call that may go so deep, and there is no placeholder in what is returned, though names
are distinct in complete schemas. -/
structure Hides (G : TypeGraph ρ) (policy : RequiredPolicy) (t : TypeRef ρ) (maxDepth : Nat) : Prop where
  mem : t ∈ G.refs
  distinct : DistinctComplete G policy
  fires : (compileRef G.env policy t (fresh maxDepth [])).2.context.guardHits ≠ 0
  hidden : ¬ (compileRef G.env policy t (fresh maxDepth [])).1.Somewhere (·.isGuardPlaceholder = true)

/-- Nothing holds somewhere in a schema if it holds neither of it nor somewhere in what is right inside. -/
theorem not_somewhere {P : Schema → Prop} {s : Schema} (hhere : ¬ P s)
    (hinside : ∀ t ∈ s.children, ¬ t.Somewhere P) : ¬ s.Somewhere P := by
  intro h
  cases h with
  | here h => exact hhere h
  | inside ht h => exact hinside _ ht h

theorem not_somewhere_text : ¬ (ofScalar .text).Somewhere (·.isGuardPlaceholder = true) := by
  refine not_somewhere (by decide +kernel) ?_
  intro s hs
  cases hs

namespace Letter

def stamp : TypeRef Unit := .ready (.record "Stamp" [{ name := "value", type := Tree.text }] none)

/-- An envelope has a stamp, which is merged into it. -/
def envelope : TypeRef Unit :=
  .ready (.record "Envelope" [{ name := "stamp", type := stamp, metadata := { flatten := true } }] none)

/-- A letter has an envelope, which is merged into it, and a text under the name of the envelope's field. -/
def self : TypeRef Unit :=
  .ready (.record "Letter"
    [{ name := "envelope", type := envelope, metadata := { flatten := true } },
      { name := "stamp", type := Tree.text }] none)

theorem closed : ∀ t ∈ [self, envelope, stamp, Tree.text], ∀ u ∈ (t.load Tree.env).shape.mentions,
    u ∈ [self, envelope, stamp, Tree.text] :=
  TypeGraph.closed_of_places [[1, 3], [2], [3], []] rfl

def graph : TypeGraph Unit := .ofList Tree.env [self, envelope, stamp, Tree.text] closed

theorem distinctComplete : DistinctComplete graph .tagged := distinctComplete_ofList 5 (by decide +kernel)

/-- In the envelope the stamp is cut off, so that it becomes a property of its own, which the text replaces. -/
theorem hides : Hides graph .tagged self 2 where
  mem := List.mem_cons_self
  distinct := distinctComplete
  fires := by decide +kernel
  hidden := by
    have hchildren : (compileRef graph.env .tagged self (fresh 2 [])).1.children = [ofScalar .text] := rfl
    refine not_somewhere (by decide +kernel) ?_
    rw [hchildren]
    intro s hs
    rw [List.mem_singleton.1 hs]
    exact not_somewhere_text

end Letter

namespace Ticket

def text : TypeRef String := .ready (.scalar "string" .text)

/-- A number. -/
def number : TypeRef String := .ready (.scalar "u8" (.integer true))

/-- Two records that both say that they are users. -/
def env : Environment String where
  load handle := .record "User" [{ name := if handle = "person" then "address" else "id", type := text }] none

def user : TypeRef String := .deferred "User" "user"

def person : TypeRef String := .deferred "User" "person"

def town : TypeRef String := .ready (.record "Town" [{ name := "size", type := number }] none)

/-- A ticket has the other user as its owner, a town as its address, and a user that is merged into it. -/
def self : TypeRef String :=
  .ready (.record "Ticket"
    [{ name := "code", type := text }, { name := "owner", type := person }, { name := "address", type := town },
      { name := "user", type := user, metadata := { flatten := true } }] none)

theorem closed : ∀ t ∈ [self, person, user, town, number, text], ∀ u ∈ (t.load env).shape.mentions,
    u ∈ [self, person, user, town, number, text] :=
  TypeGraph.closed_of_places [[5, 1, 3, 2], [5], [5], [4], [], []] rfl

def graph : TypeGraph String := .ofList env [self, person, user, town, number, text] closed

theorem distinctComplete : DistinctComplete graph .tagged := distinctComplete_ofList 5 (by decide +kernel)

/-- In the address the size is cut off. For the user the schema of the other one is answered, which has an
address. -/
theorem hides : Hides graph .tagged self 2 where
  mem := List.mem_cons_self
  distinct := distinctComplete
  fires := by decide +kernel
  hidden := by
    -- No node that is left is a placeholder: two texts, and an object around a third.
    have hchildren : (compileRef graph.env .tagged self (fresh 2 [])).1.children =
        [ofScalar .text, ofScalar .text, .object [("address", ofScalar .text)] []] := rfl
    refine not_somewhere (by decide +kernel) ?_
    rw [hchildren]
    intro s hs
    simp only [List.mem_cons, List.not_mem_nil, or_false] at hs
    rcases hs with rfl | rfl | rfl
    · exact not_somewhere_text
    · exact not_somewhere_text
    · refine not_somewhere (by decide +kernel) ?_
      intro s hs
      rw [List.mem_singleton.1 hs]
      exact not_somewhere_text

end Ticket

/-- It is not enough that names are distinct in complete schemas. A flattened field whose type is cut off is there
under its own name, where another field may be; and where two types have one identity, what is merged may be
the schema of the other one. -/
theorem run_hides_cuts : Hides Letter.graph .tagged Letter.self 2 ∧ Hides Ticket.graph .tagged Ticket.self 2 :=
  ⟨Letter.hides, Ticket.hides⟩

end Compile

end PayloadSchema
