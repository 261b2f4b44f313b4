import PayloadSchema.Proofs.Compile.Pointers

/-!
# Keys that are texts

Whether the values of a type are written as texts is decided twice: the key of a map is looked at behind its
pointers (`Descriptor.isTextKey`), and a type is compiled to a schema that may be of the kind `string`. Where the
pointers end soon enough, both go by the shape at their end, and they agree on all shapes but two: a point in
time and a day are written as texts, but not taken for keys (`run_isTextKey`, `isTextKey_ne_day`).
-/

namespace PayloadSchema

open Compile
open Descriptor (EndsIn)

variable {ρ : Type}

/-! ## Shapes -/

namespace Shape

variable {τ : Type}

/-- A text that is taken for a key. -/
def isText : Shape τ → Bool
  | .scalar .text => true
  | .scalar .character => true
  | .scalar .uuid => true
  | .enumeration variants => variants.all (·.payload.isNone)
  | _ => false

def isDated : Shape τ → Bool
  | .scalar .instant => true
  | .scalar .date => true
  | _ => false

/-- For a text nothing else is asked for. -/
theorem parts_of_isText {shape : Shape τ} (h : shape.isText = true) : shape.parts = [] := by
  cases shape with
  | scalar s => rfl
  | enumeration variants =>
      refine List.filterMap_eq_nil_iff.2 ?_
      intro v hv
      exact Option.isNone_iff_eq_none.1 (List.all_eq_true.1 h v hv)
  | _ => cases h

/-- Days and points in time are none of the texts that may be keys. -/
theorem isDated_of_isText {shape : Shape τ} (h : shape.isText = true) : shape.isDated = false := by
  cases shape with
  | scalar s => cases s <;> first | rfl | cases h
  | enumeration variants => rfl
  | _ => cases h

end Shape

namespace Compile

/-- The shapes at the end of a chain that are compiled to texts. -/
theorem kind_build_eq_string_iff (env : Environment ρ) (policy : RequiredPolicy) {d : Descriptor (TypeRef ρ)}
    (h : d.shape.isPointer = false) (answers : List Schema) :
    (build env policy d answers).kind = some .string ↔ d.shape.isText = true ∨ d.shape.isDated = true := by
  have hkind : (build env policy d answers).kind =
      (assemble policy (hasTextKey env d.shape) d.shape answers).kind := rfl
  rw [hkind]
  -- The key test only adds a remark to a map, so it may be any flag here.
  generalize hasTextKey env d.shape = isKey
  cases hshape : d.shape with
  | scalar s =>
      cases s with
      | integer unsigned =>
          cases unsigned <;>
            simp [assemble, ofScalar, Schema.ofKind, Shape.isText, Shape.isDated]
      | _ => simp [assemble, ofScalar, Schema.ofKind, formatted, Shape.isText, Shape.isDated]
  | enumeration variants =>
      by_cases hnone : variants.all (·.payload.isNone) = true
      · simp [assemble, hnone, ofNames, Shape.isText]
      · simp [assemble, hnone, Schema.withDescription, Schema.object, Shape.isText, Shape.isDated]
  | map key value =>
      cases isKey <;> simp [assemble, Schema.withDescription, Schema.map, Shape.isText, Shape.isDated]
  | pointer target optional =>
      rw [hshape] at h
      cases h
  | _ =>
      simp [assemble, Schema.object, Schema.array, Schema.dynamic, Schema.annotated, Shape.isText,
        Shape.isDated]

/-- A map has its own description, or a remark on its keys in its place. -/
theorem description_build_map (env : Environment ρ) (policy : RequiredPolicy) {d : Descriptor (TypeRef ρ)}
    {key value : TypeRef ρ} (h : d.shape = .map key value) (answers : List Schema) :
    (build env policy d answers).description =
      if (key.load env).isTextKey env = true then d.description else some (keyText key.identity) := by
  unfold build describe
  rw [h]
  dsimp only [assemble, hasTextKey]
  split
  · rfl
  · rfl

variable {G : TypeGraph ρ}

/-! ## Going along a chain -/

/-- An identity from which a chain of more than so many pointers leads. -/
def Beyond (G : TypeGraph ρ) (n : Nat) (X : String) : Prop :=
  ∃ u ∈ G.refs, u.identity = X ∧ ∃ m e, EndsIn G.env m (u.load G.env) e ∧ n < m

/-- What lies deeper than so many levels lies deeper than fewer. -/
theorem Beyond.mono {n m : Nat} {X : String} (h : Beyond G m X) (hnm : n ≤ m) : Beyond G n X := by
  obtain ⟨u, hu, hid, k, e, hends, hlt⟩ := h
  exact ⟨u, hu, hid, k, e, hends, Nat.lt_of_le_of_lt hnm hlt⟩

/-- What a chain leaves behind with its first pointer is beyond the rest of it. -/
theorem beyond_of_endsIn {n : Nat} {t : TypeRef ρ} (ht : t ∈ G.refs) {e : Descriptor (TypeRef ρ)}
    (hends : EndsIn G.env (n + 1) (t.load G.env) e) : Beyond G n t.identity :=
  ⟨t, ht, rfl, n + 1, e, hends, Nat.lt_succ_self n⟩

/-- What was passed on the way is not met again. -/
theorem not_mem_of_beyond (hc : G.Consistent) {n : Nat} {t : TypeRef ρ} (ht : t ∈ G.refs)
    {e : Descriptor (TypeRef ρ)} (hends : EndsIn G.env n (t.load G.env) e) {passed : List String}
    (hpassed : ∀ X ∈ passed, Beyond G n X) : t.identity ∉ passed := by
  intro hmem
  obtain ⟨u, hu, hid, m, e', hends', hlt⟩ := hpassed _ hmem
  have hlength : m = n := hc.length_unique hu ht hid hends' hends
  exact absurd hlength (Nat.ne_of_gt hlt)

/-- A look at what is no pointer ends there. -/
theorem isTextKeyWithin_of_last (env : Environment ρ) (hops : Nat) {seen : List String}
    {d : Descriptor (TypeRef ρ)} (hnew : d.identity ∉ seen) (h : d.shape.isPointer = false) :
    Descriptor.isTextKeyWithin env (hops + 1) seen d = (d.shape.isText, []) := by
  unfold Descriptor.isTextKeyWithin
  rw [if_neg (mt List.contains_iff_mem.1 hnew)]
  cases hshape : d.shape with
  | scalar s => cases s <;> rfl
  | pointer target optional =>
      rw [hshape] at h
      cases h
  | _ => rfl

/-- A look at a pointer goes on with the target. -/
theorem isTextKeyWithin_of_pointer (env : Environment ρ) (hops : Nat) {seen : List String}
    {d : Descriptor (TypeRef ρ)} (hnew : d.identity ∉ seen) {target : TypeRef ρ} {optional : Bool}
    (h : d.shape = .pointer target optional) :
    Descriptor.isTextKeyWithin env (hops + 1) seen d =
      ((Descriptor.isTextKeyWithin env hops (d.identity :: seen) (target.load env)).1,
        (Descriptor.isTextKeyWithin env hops (d.identity :: seen) (target.load env)).2 ++ target.loads) := by
  rw [Descriptor.isTextKeyWithin, if_neg (mt List.contains_iff_mem.1 hnew), h]

/-- Where a chain ends soon enough, and nothing of it was passed before, a type is a key if the shape at the end
is a text. -/
theorem isTextKeyWithin_of_endsIn (hf : G.Faithful) (hc : G.Consistent) {n hops : Nat} {t : TypeRef ρ}
    {e : Descriptor (TypeRef ρ)} (ht : t ∈ G.refs) (hends : EndsIn G.env n (t.load G.env) e) (hn : n < hops)
    {seen : List String} (hseen : ∀ X ∈ seen, Beyond G n X) :
    (Descriptor.isTextKeyWithin G.env hops seen (t.load G.env)).1 = e.shape.isText := by
  induction n generalizing t hops seen with
  | zero =>
      obtain ⟨hops, rfl⟩ := Nat.exists_eq_succ_of_ne_zero (Nat.ne_of_gt hn)
      -- What was seen lies further from the end than the node at hand, so it is none of them.
      have hnew := not_mem_of_beyond hc ht hends hseen
      rw [← hf t ht] at hnew
      obtain ⟨rfl, hlast⟩ := hends.of_zero
      rw [isTextKeyWithin_of_last G.env hops hnew hlast]
  | succ n ih =>
      obtain ⟨hops, rfl⟩ := Nat.exists_eq_succ_of_ne_zero (Nat.ne_of_gt (Nat.zero_lt_of_lt hn))
      have hnew := not_mem_of_beyond hc ht hends hseen
      rw [← hf t ht] at hnew
      obtain ⟨target, optional, hpointer, hrest⟩ := hends.of_succ
      rw [isTextKeyWithin_of_pointer G.env hops hnew hpointer]
      refine ih (TypeGraph.mem_of_pointer ht hpointer) hrest (Nat.lt_of_succ_lt_succ hn) ?_
      intro X hX
      rcases List.mem_cons.1 hX with rfl | hX
      · rw [hf t ht]
        exact beyond_of_endsIn ht hends
      · exact (hseen X hX).mono (Nat.le_succ n)

/-- On a chain guards fire further on, if there is room for one level more. -/
theorem firesAmong_of_endsIn (hc : G.Consistent) {policy : RequiredPolicy} {n : Nat} {t : TypeRef ρ}
    {e : Descriptor (TypeRef ρ)} (ht : t ∈ G.refs) (hends : EndsIn G.env n (t.load G.env) e)
    {session : Session ρ} (hroom : session.context.depth < session.context.maxDepth)
    (hvisited : ∀ X ∈ session.context.visited, Beyond G n X) {cut : Cut} {X : String}
    (h : Fires G.env policy t session cut X) :
    FiresAmong G.env policy (t.load G.env).shape.parts (enterRef G.env t session) cut X := by
  have hopen : cut? t.identity session.context = none :=
    cut?_eq_none_iff.2 ⟨not_mem_of_beyond hc ht hends hvisited, hroom⟩
  exact (fires_iff_of_open h.not_cached hopen).1 h

/-- Along a chain to what has no parts no guard fires, if there is room for all its levels. -/
theorem not_fires_of_endsIn (hf : G.Faithful) (hc : G.Consistent) (policy : RequiredPolicy) {n : Nat}
    {t : TypeRef ρ} {e : Descriptor (TypeRef ρ)} (ht : t ∈ G.refs)
    (hends : EndsIn G.env n (t.load G.env) e) (hparts : e.shape.parts = []) {session : Session ρ}
    (hroom : session.context.depth + n < session.context.maxDepth)
    (hvisited : ∀ X ∈ session.context.visited, Beyond G n X) (cut : Cut) (X : String) :
    ¬ Fires G.env policy t session cut X := by
  intro h
  induction n generalizing t session with
  | zero =>
      have hamong := firesAmong_of_endsIn hc ht hends hroom hvisited h
      obtain ⟨rfl, -⟩ := hends.of_zero
      rw [hparts] at hamong
      exact not_firesAmong_nil hamong
  | succ n ih =>
      have hamong := firesAmong_of_endsIn hc ht hends (Nat.lt_of_add_right_lt hroom) hvisited h
      obtain ⟨target, optional, hpointer, hrest⟩ := hends.of_succ
      rw [hpointer] at hamong
      rcases firesAmong_cons.1 hamong with htarget | hnil
      · -- One hop nearer to the end, one level deeper: the room left shrinks by as much as is needed.
        refine ih (TypeGraph.mem_of_pointer ht hpointer) hrest ?_ ?_ htarget
        · show session.context.depth + 1 + n < session.context.maxDepth
          omega
        · intro Y hY
          have hY' : Y ∈ session.context.visited.insert (t.load G.env).identity := hY
          rcases List.mem_insert_iff.1 hY' with rfl | hY'
          · rw [hf t ht]
            exact beyond_of_endsIn ht hends
          · exact (hvisited Y hY').mono (Nat.le_succ n)
      · exact not_firesAmong_nil hnil

/-! ## Keys of settings and of a diary -/

namespace Settings

/-- An enumeration without payloads. -/
def level : TypeRef Unit :=
  .ready (.enumeration "Level" [{ name := "low", payload := none }, { name := "high", payload := none }])

/-- A pointer to the enumeration. -/
def boxed : TypeRef Unit := .ready (.pointer level)

def self : TypeRef Unit := .ready ((Descriptor.map boxed Tree.text).withDescription (some "by level"))

theorem closed : ∀ t ∈ [self, boxed, level, Tree.text], ∀ u ∈ (t.load Tree.env).shape.mentions,
    u ∈ [self, boxed, level, Tree.text] :=
  TypeGraph.closed_of_places [[1, 3], [2], [], []] rfl

/-- The references of the settings. -/
def graph : TypeGraph Unit := .ofList Tree.env [self, boxed, level, Tree.text] closed

theorem faithful : graph.Faithful := TypeGraph.faithful_ofList (by decide)

theorem consistent : graph.Consistent := TypeGraph.consistent_ofList (by decide)

end Settings

namespace Diary

def day : TypeRef Unit := .ready (.scalar "date" .date)

def self : TypeRef Unit := .ready (.map day Tree.text)

theorem closed : ∀ t ∈ [self, day, Tree.text], ∀ u ∈ (t.load Tree.env).shape.mentions,
    u ∈ [self, day, Tree.text] :=
  TypeGraph.closed_of_places [[1, 2], [], []] rfl

def graph : TypeGraph Unit := .ofList Tree.env [self, day, Tree.text] closed

theorem faithful : graph.Faithful := TypeGraph.faithful_ofList (by decide)

theorem consistent : graph.Consistent := TypeGraph.consistent_ofList (by decide)

end Diary

/-! ## Keys and their schemas -/

/-- A type is written as a text: some call for it is not truncated and gives a schema of this kind. -/
def WrittenAsText (env : Environment ρ) (policy : RequiredPolicy) (r : Request ρ) : Prop :=
  ∃ maxDepth, (r.run env policy (fresh maxDepth [])).2.context.isTruncated = false ∧
    (r.run env policy (fresh maxDepth [])).1.kind = some .string

/-- **Keys and texts.** In a faithful and consistent graph, let so many pointers lead from a type to one that is
no pointer, fewer than are followed to look at a key. If the type is a key, calls for it are not truncated where
there is room for these pointers. Whenever a call for it is not truncated, the type is a key if and only if its
schema is of the kind `string` and what it leads to is neither a point in time nor a day. Wherever a map with
these keys is expanded, it has its own description if the keys are written as texts and are neither of the two,
and otherwise the remark that they are no texts. -/
theorem run_isTextKey (G : TypeGraph ρ) (hf : G.Faithful) (hc : G.Consistent) (policy : RequiredPolicy)
    (r : Request ρ) (hr : r.root ∈ G.refs) {n : Nat} {e : Descriptor (TypeRef ρ)}
    (hends : EndsIn G.env n (r.root.load G.env) e) (hn : n < Descriptor.keyHops) :
    ((r.root.load G.env).isTextKey G.env = true → ∀ maxDepth, n < maxDepth →
      (r.run G.env policy (fresh maxDepth [])).2.context.isTruncated = false) ∧
    (∀ maxDepth, (r.run G.env policy (fresh maxDepth [])).2.context.isTruncated = false →
      ((r.root.load G.env).isTextKey G.env = true ↔
        (r.run G.env policy (fresh maxDepth [])).1.kind = some .string ∧ e.shape.isDated = false)) ∧
    ∀ m value session, (m.load G.env).shape = .map r.root value →
      cached? policy m.identity session.cache = none → cut? m.identity session.context = none →
        (WrittenAsText G.env policy r ∧ e.shape.isDated = false →
          (compileRef G.env policy m session).1.description = (m.load G.env).description) ∧
        (¬ (WrittenAsText G.env policy r ∧ e.shape.isDated = false) →
          (compileRef G.env policy m session).1.description = some (keyText r.root.identity)) := by
  have hkey : (r.root.load G.env).isTextKey G.env = e.shape.isText :=
    isTextKeyWithin_of_endsIn hf hc hr hends hn fun X hX => absurd hX List.not_mem_nil
  have hroom : (r.root.load G.env).isTextKey G.env = true → ∀ maxDepth, n < maxDepth →
      (r.run G.env policy (fresh maxDepth [])).2.context.isTruncated = false := by
    intro htext maxDepth hlt
    rw [hkey] at htext
    have hlevels : 0 + n < maxDepth := by rwa [Nat.zero_add]
    have hhits := guardHits_of_not_fires G.env policy r.root (fresh maxDepth [])
      (not_fires_of_endsIn hf hc policy hr hends (Shape.parts_of_isText htext) hlevels
        fun X hX => absurd hX List.not_mem_nil)
    rw [Request.run_eq, Context.isTruncated, hhits]
    rfl
  have hiff : ∀ maxDepth, (r.run G.env policy (fresh maxDepth [])).2.context.isTruncated = false →
      ((r.root.load G.env).isTextKey G.env = true ↔
        (r.run G.env policy (fresh maxDepth [])).1.kind = some .string ∧ e.shape.isDated = false) := by
    intro maxDepth huntruncated
    have hmade := made_of_not_truncated hf hc (TypeGraph.mem_of_mem_parts hr) huntruncated
    -- the schema is that of the end of the chain, but for the description
    obtain ⟨s, description, ⟨answers, -, rfl⟩, hs⟩ := hmade.of_points hends.points
    have hkind := kind_build_eq_string_iff G.env policy hends.last answers
    rw [hkey, hs, hkind]
    constructor
    · intro htext
      exact ⟨.inl htext, Shape.isDated_of_isText htext⟩
    · rintro ⟨htext | hdated, hundated⟩
      · exact htext
      · rw [hundated] at hdated
        cases hdated
  have hwritten : (r.root.load G.env).isTextKey G.env = true ↔
      WrittenAsText G.env policy r ∧ e.shape.isDated = false := by
    constructor
    · intro htext
      have huntruncated := hroom htext (n + 1) (Nat.lt_succ_self n)
      obtain ⟨hkind, hundated⟩ := (hiff (n + 1) huntruncated).1 htext
      exact ⟨⟨n + 1, huntruncated, hkind⟩, hundated⟩
    · rintro ⟨⟨maxDepth, huntruncated, hkind⟩, hundated⟩
      exact (hiff maxDepth huntruncated).2 ⟨hkind, hundated⟩
  refine ⟨hroom, hiff, ?_⟩
  intro m value session hshape hcached hopen
  rw [compileRef_of_open G.env hcached hopen, description_build_map G.env policy hshape, ← hwritten]
  exact ⟨fun htext => if_pos htext, fun hnone => if_neg hnone⟩

/-- A pointer to an enumeration is a key: its schema is a text, and settings have their own description. -/
theorem run_isTextKey_settings :
    Settings.graph.Faithful ∧ Settings.graph.Consistent ∧
      EndsIn Tree.env 1 (Settings.boxed.load Tree.env) (Settings.level.load Tree.env) ∧
      (compileRef Tree.env .tagged Settings.boxed (fresh 2 [])).2.context.isTruncated = false ∧
      (compileRef Tree.env .tagged Settings.boxed (fresh 2 [])).1.kind = some .string ∧
      (compileRef Tree.env .tagged Settings.self (fresh 1 [])).1.description = some "by level" := by
  have hends : EndsIn Tree.env 1 (Settings.boxed.load Tree.env) (Settings.level.load Tree.env) :=
    ⟨.step rfl (.refl _), rfl⟩
  have hroot : Settings.boxed ∈ Settings.graph.refs := List.mem_cons_of_mem _ List.mem_cons_self
  have hlt : 1 < Descriptor.keyHops := by decide
  have htext : (Settings.boxed.load Tree.env).isTextKey Tree.env = true := by decide
  have h := run_isTextKey Settings.graph Settings.faithful Settings.consistent .tagged
    (.reference Settings.boxed) hroot hends hlt
  obtain ⟨hroom, hiff, hmap⟩ := h
  -- Two levels are enough for a box around a scalar.
  have huntruncated := hroom htext 2 (by decide)
  have hkind := (hiff 2 huntruncated).1 htext
  have hdescription := (hmap Settings.self Tree.text (fresh 1 []) rfl rfl rfl).1
    ⟨⟨2, huntruncated, hkind.1⟩, hkind.2⟩
  exact ⟨Settings.faithful, Settings.consistent, hends, huntruncated, hkind.1, hdescription⟩

/-- The schema of a day is a text, but a day is no key, so that a diary has the remark on its keys. -/
theorem isTextKey_ne_day :
    Diary.graph.Faithful ∧ Diary.graph.Consistent ∧
      EndsIn Tree.env 0 (Diary.day.load Tree.env) (Diary.day.load Tree.env) ∧
      (compileRef Tree.env .tagged Diary.day (fresh 10 [])).2.context.isTruncated = false ∧
      (compileRef Tree.env .tagged Diary.day (fresh 10 [])).1.kind = some .string ∧
      (Diary.day.load Tree.env).isTextKey Tree.env = false ∧
      (compileRef Tree.env .tagged Diary.self (fresh 10 [])).1.description = some (keyText "date") :=
  ⟨Diary.faithful, Diary.consistent, ⟨.refl _, rfl⟩, rfl, rfl, rfl, rfl⟩

end Compile

end PayloadSchema
