import PayloadSchema.Metadata.Basic
import PayloadSchema.Proofs.Json.Values

/-!
# Metadata that can be stored

Every setting that a reader of attributes yields can be kept in a text: lengths have 64 bits, since they are
doubles cut to words, and a sample was read from a text itself or is a text, a truth value or a finite number
(`Setting.storable_of_mem_ofMeta`). So this holds of all metadata that attributes or tags amount to.

A bound may be infinite, and a sample may be `null`.

* `FieldMetadata.storable_ofAttributes` — what attributes amount to can be stored.
-/

namespace PayloadSchema

open Source (Meta MetaPath Token Cursor Parser Expr Grammar)

namespace Metadata

namespace Reader

variable {σ α β : Type} {P : σ → Prop}

/-- A reader yields only settings with a property, and what it gives has another one. -/
def Yields (P : σ → Prop) (Q : α → Prop) (r : Reader σ α) : Prop :=
  ∀ c settings, (∀ s ∈ settings, P s) →
    (∀ s ∈ (r (c, settings)).2.2, P s) ∧ ∀ a, (r (c, settings)).1 = some a → Q a

/-- A value that is there is given without any setting. -/
theorem yields_pure {Q : α → Prop} {a : α} (ha : Q a) : Yields P Q (pure a) := by
  intro c settings h
  refine ⟨h, ?_⟩
  rintro _ ⟨⟩
  exact ha

theorem yields_failure {Q : α → Prop} : Yields P Q (failure : Reader σ α) := by
  intro c settings h
  refine ⟨h, ?_⟩
  rintro _ ⟨⟩

/-- One reader after another yields what both do, and the second may use what the first gives. -/
theorem Yields.bind {Q : α → Prop} {R : β → Prop} {r : Reader σ α} {f : α → Reader σ β} (hr : Yields P Q r)
    (hf : ∀ a, Q a → Yields P R (f a)) : Yields P R (r >>= f) := by
  intro c settings h
  obtain ⟨hsettings, hresult⟩ := hr c settings h
  -- The second reader starts from the settings of the first, which are fine whether it failed or not.
  cases hread : r (c, settings) with
  | mk result state =>
      rw [hread] at hsettings hresult
      have hbind : (r >>= f) (c, settings) =
          (match result with
          | some a => f a
          | none => pure none : StateM (Cursor × List σ) (Option β)) state := by
        show (OptionT.bind r f) (c, settings) = _
        simp only [OptionT.bind, OptionT.mk, Bind.bind, StateT.bind, hread]
        cases result <;> rfl
      rw [hbind]
      cases result with
      | none =>
          refine ⟨hsettings, ?_⟩
          rintro _ ⟨⟩
      | some a => exact hf a (hresult a rfl) state.1 state.2 hsettings

/-- What a parser takes has a property if all that it may give has. -/
theorem yields_take {Q : α → Prop} {p : Parser α} (hp : ∀ c a c', p c = some (a, c') → Q a) :
    Yields P Q (take p) := by
  intro c settings h
  unfold take
  dsimp only
  split
  next a c' hread =>
    refine ⟨h, ?_⟩
    rintro _ ⟨⟩
    exact hp c a c' hread
  next =>
    refine ⟨h, ?_⟩
    rintro _ ⟨⟩

/-- A setting with the property may be yielded. -/
theorem yields_yield {setting : σ} (hs : P setting) : Yields P (fun _ => True) (yield setting) := by
  intro c settings h
  refine ⟨?_, fun _ _ => trivial⟩
  have hstate : ((yield setting : Reader σ Unit) (c, settings)).2.2 = settings ++ [setting] := rfl
  rw [hstate]
  intro s hs'
  rcases List.mem_append.1 hs' with hs' | hs'
  · exact h s hs'
  · rw [List.mem_singleton.1 hs']
    exact hs

/-- Either of two readers may be chosen. -/
theorem yields_ite {Q : α → Prop} {b : Bool} {r r' : Reader σ α} (hr : Yields P Q r) (hr' : Yields P Q r') :
    Yields P Q (if b = true then r else r') := by
  split
  · exact hr
  · exact hr'

theorem yields_parsed {p : Parser α} : Yields P (fun _ => True) (take p) := yields_take fun _ _ _ _ => trivial

theorem yields_done : Yields P (fun _ => True) (pure () : Reader σ Unit) := yields_pure trivial

section

variable {item : MetaPath → Reader σ Unit} (h : ∀ path, Yields P (fun _ => True) (item path))

include h

/-- A list of items yields what the items do. -/
theorem yields_items (budget : Nat) : Yields P (fun _ => True) (items item budget) := by
  induction budget with
  | zero => exact yields_failure
  | succ budget ih =>
      rw [items]
      refine yields_parsed.bind ?_
      intro path _
      refine (h path).bind ?_
      intro _ _
      -- A list ends after an item or after a comma; otherwise another item follows.
      refine yields_parsed.bind ?_
      intro _ _
      refine yields_ite yields_done ?_
      refine yields_parsed.bind ?_
      intro _ _
      refine yields_parsed.bind ?_
      intro _ _
      exact yields_ite yields_done ih

/-- Items in parentheses yield what the items do, even if they are not all read. -/
theorem yields_inParentheses : Yields P (fun _ => True) (inParentheses item) := by
  intro c settings hsettings
  refine ⟨?_, fun _ _ => trivial⟩
  unfold inParentheses
  dsimp only
  split
  next inner rest _ =>
    have hitems := yields_items h (inner.length + 1)
    exact (hitems { c with tokens := inner } settings hsettings).1
  next => exact hsettings

/-- All settings that are read off some tokens have the property. -/
theorem forall_mem_run (tokens : List Token) : ∀ s ∈ (run item tokens).1, P s := by
  unfold run
  split
  · simp
  · have hitems := yields_items h (tokens.length + 1)
    have hnone : ∀ s ∈ [], P s := List.forall_mem_nil P
    exact (hitems { tokens } [] hnone).1

end

variable (g : Grammar)

/-- A value that is passed over yields nothing. -/
theorem yields_skipValue : Yields P (fun _ => True) (skipValue (σ := σ) g) := by
  unfold skipValue
  refine yields_parsed.bind ?_
  intro _ _
  refine yields_ite ?_ ?_
  · refine yields_parsed.bind ?_
    intro _ _
    exact yields_done
  · refine yields_parsed.bind ?_
    intro _ _
    exact yields_ite yields_parsed yields_done

/-- A number is read without any setting. -/
theorem yields_number : Yields P (fun _ => True) (number (σ := σ) g) := by
  unfold number
  refine yields_parsed.bind ?_
  intro e _
  split
  · exact yields_pure trivial
  · exact yields_failure

/-- A double that is cut to a word has 64 bits. -/
theorem toWord_lt (x : Binary64) : x.toWord < twoPow 64 := by
  have hpositive : 0 < twoPow 64 := by decide
  have hword : twoPow 64 - 1 < twoPow 64 := by decide
  cases x with
  | finite negative m e =>
      cases negative with
      | false => exact Nat.lt_of_le_of_lt (Nat.min_le_right _ _) hword
      | true => exact hpositive
  | infinite negative =>
      cases negative with
      | false => exact hword
      | true => exact hpositive
  | nan => exact hpositive

/-- A length has 64 bits. -/
theorem yields_length : Yields P (· < twoPow 64) (length (σ := σ) g) := by
  unfold length
  refine (yields_number g).bind ?_
  intro x _
  unfold lengthOf?
  by_cases hbelow : x.isBelowZero = true
  · simp only [hbelow, if_true]
    exact yields_failure
  · simp only [hbelow]
    exact yields_pure (toWord_lt x)

/-- A name is read without any setting. -/
theorem yields_name : Yields P (fun _ => True) (name (σ := σ) g) := by
  have hsides : Yields P (fun _ => True) (name.sides (σ := σ) g) := by
    intro c settings hsettings
    refine ⟨?_, fun _ _ => trivial⟩
    unfold name.sides
    dsimp only
    split <;> exact hsettings
  unfold name
  refine yields_parsed.bind ?_
  intro _ _
  refine yields_ite ?_ ?_
  · refine yields_parsed.bind ?_
    intro _ _
    exact yields_pure trivial
  · refine hsides.bind ?_
    intro _ _
    exact yields_pure trivial

end Reader

/-! ## Settings -/

/-- A setting that can be kept in a text. -/
def Setting.Storable : Setting → Prop
  | .minLength n => n < twoPow 64
  | .maxLength n => n < twoPow 64
  | .sample v => v.Storable
  | _ => True

open Reader

/-- A value that was read can be stored. -/
theorem storable_of_ofText? {text : String} {v : Json.Value} (h : Json.Value.ofText? text = some v) :
    v.Storable := by
  obtain ⟨d, -, hd⟩ := Option.bind_eq_some_iff.1 h
  exact (Json.Value.readAt_of_toValueAt? hd).1

/-- A sample is a value that was read, a text, a truth value, or a finite number. -/
theorem storable_of_sampleOf? {e : Expr} {v : Json.Value} (h : sampleOf? e = some v) : v.Storable := by
  unfold sampleOf? at h
  split at h
  next s =>
    cases h
    -- A text that is JSON stands for its value, any other for itself.
    cases hread : Json.Value.ofText? s with
    | none => exact .string s
    | some v => exact storable_of_ofText? hread
  next b =>
    cases h
    exact .bool b
  next =>
    obtain ⟨x, -, h⟩ := Option.bind_eq_some_iff.1 h
    split at h
    next hfinite =>
      cases h
      exact .number hfinite
    next => cases h

variable (g : Grammar)

/-- A sample that is read can be stored. -/
theorem yields_sample : Yields Setting.Storable Json.Value.Storable (sample g) := by
  unfold sample
  refine yields_parsed.bind ?_
  intro e _
  split
  next v hv => exact yields_pure (storable_of_sampleOf? hv)
  next => exact yields_failure

/-- The lengths that are read can be stored. -/
theorem yields_lengthItem (path : MetaPath) : Yields Setting.Storable (fun _ => True) (lengthItem g path) := by
  have hlength := yields_length (P := Setting.Storable) g
  unfold lengthItem
  split
  · refine hlength.bind ?_
    intro n hn
    exact yields_yield hn
  split
  · refine hlength.bind ?_
    intro n hn
    exact yields_yield hn
  split
  · -- An exact length is both bounds.
    refine hlength.bind ?_
    intro n hn
    have hleast : (Setting.minLength n).Storable := hn
    refine (yields_yield hleast).bind ?_
    intro _ _
    exact yields_yield hn
  · exact yields_skipValue g

/-- The bounds that are read can be stored. -/
theorem yields_rangeItem (path : MetaPath) : Yields Setting.Storable (fun _ => True) (rangeItem g path) := by
  have hnumber := yields_number (P := Setting.Storable) g
  unfold rangeItem
  split
  · refine hnumber.bind ?_
    intro x _
    exact yields_yield trivial
  split
  · refine hnumber.bind ?_
    intro x _
    exact yields_yield trivial
  · exact yields_skipValue g

/-- What is read of serialization can be stored. -/
theorem yields_serdeItem (path : MetaPath) : Yields Setting.Storable (fun _ => True) (serdeItem g path) := by
  have hname := yields_name (P := Setting.Storable) g
  unfold serdeItem
  split
  · refine hname.bind ?_
    intro n _
    split
    · exact yields_yield trivial
    · exact yields_done
  split
  · exact yields_yield trivial
  split
  · refine (yields_yield trivial).bind ?_
    intro _ _
    exact yields_skipValue g
  split
  · exact yields_yield trivial
  split
  · exact yields_yield trivial
  · exact yields_skipValue g

/-- What is read of validation can be stored. -/
theorem yields_validateItem (path : MetaPath) :
    Yields Setting.Storable (fun _ => True) (validateItem g path) := by
  have hskip := yields_skipValue (P := Setting.Storable) g
  unfold validateItem
  split
  · exact yields_yield trivial
  split
  · refine (yields_yield trivial).bind ?_
    intro _ _
    exact hskip
  split
  · refine (yields_yield trivial).bind ?_
    intro _ _
    exact hskip
  split
  · exact yields_inParentheses (yields_lengthItem g)
  split
  · exact yields_inParentheses (yields_rangeItem g)
  split
  · refine yields_parsed.bind ?_
    intro _ _
    refine yields_ite ?_ hskip
    refine yields_parsed.bind ?_
    intro _ _
    exact yields_yield trivial
  split
  · refine yields_parsed.bind ?_
    intro _ _
    exact yields_yield trivial
  · exact hskip

/-- What is read for the schema can be stored: its samples and lengths are the parts in question. -/
theorem yields_schemaItem (path : MetaPath) : Yields Setting.Storable (fun _ => True) (schemaItem g path) := by
  have hplain {f : String → Setting} (hf : ∀ text, (f text).Storable) :
      Yields Setting.Storable (fun _ => True) (text >>= fun t => yield (f t)) :=
    yields_parsed.bind fun t _ => yields_yield (hf t)
  have hbound {f : Binary64 → Setting} (hf : ∀ x, (f x).Storable) :
      Yields Setting.Storable (fun _ => True) (number g >>= fun x => yield (f x)) :=
    (yields_number g).bind fun x _ => yields_yield (hf x)
  have hsample : Yields Setting.Storable (fun _ => True) (sample g >>= fun v => yield (.sample v)) :=
    (yields_sample g).bind fun v hv => yields_yield hv
  have hlength {f : Nat → Setting} (hf : ∀ n < twoPow 64, (f n).Storable) :
      Yields Setting.Storable (fun _ => True) (length g >>= fun n => yield (f n)) :=
    (yields_length g).bind fun n hn => yields_yield (hf n hn)
  unfold schemaItem
  -- One branch for each key, in the order the keys are tried.
  refine yields_ite (hplain fun _ => trivial) ?_
  refine yields_ite (yields_yield trivial) ?_
  refine yields_ite (yields_yield trivial) ?_
  refine yields_ite (yields_yield trivial) ?_
  refine yields_ite (hplain fun _ => trivial) ?_
  refine yields_ite (hplain fun _ => trivial) ?_
  refine yields_ite (hplain fun _ => trivial) ?_
  refine yields_ite hsample ?_
  refine yields_ite (hplain fun _ => trivial) ?_
  refine yields_ite (hlength fun _ hn => hn) ?_
  refine yields_ite (hlength fun _ hn => hn) ?_
  refine yields_ite (hbound fun _ => trivial) ?_
  refine yields_ite (hbound fun _ => trivial) ?_
  exact yields_skipValue g

/-- What an attribute says of a field can be kept in a text. -/
theorem Setting.storable_of_mem_ofMeta (m : Meta) : ∀ s ∈ Setting.ofMeta m, s.Storable := by
  have hdocumentation (m : Meta) : ∀ s ∈ ((documentation? m).map Setting.documentation).toList, s.Storable := by
    cases documentation? m <;> simp [Setting.Storable]
  -- Only the three namespaces are read; any other attribute may be a documentation line.
  unfold Setting.ofMeta
  split
  next path tokens =>
    dsimp only
    split
    · exact forall_mem_run (yields_serdeItem _) tokens
    split
    · exact forall_mem_run (yields_validateItem _) tokens
    split
    · exact forall_mem_run (yields_schemaItem _) tokens
    · simp
  next => exact hdocumentation m

end Metadata

/-! ## Metadata of fields -/

namespace FieldMetadata

open Metadata

/-- The parts of the metadata that a schema takes over can be kept in a text. -/
structure Storable (m : FieldMetadata) : Prop where
  minLength : ∀ n, m.minLength = some n → n < twoPow 64
  maxLength : ∀ n, m.maxLength = some n → n < twoPow 64
  sample : ∀ v, m.sample = some v → v.Storable

theorem storable_empty : Storable {} := by
  constructor <;> rintro _ ⟨⟩

/-- A storable setting leaves the metadata storable. -/
theorem Storable.set {m : FieldMetadata} (hm : m.Storable) {s : Setting} (hs : s.Storable) :
    (m.set s).Storable := by
  cases s with
  | minLength n => exact { hm with minLength := by rintro _ ⟨⟩; exact hs }
  | maxLength n => exact { hm with maxLength := by rintro _ ⟨⟩; exact hs }
  | sample v => exact { hm with sample := by rintro _ ⟨⟩; exact hs }
  | _ => exact { hm with }

/-- Metadata of storable settings is storable. -/
theorem storable_ofSettings {settings : List Setting} (h : ∀ s ∈ settings, s.Storable) :
    (ofSettings settings).Storable := by
  have hfold {m : FieldMetadata} (hm : m.Storable) (settings : List Setting) (h : ∀ s ∈ settings, s.Storable) :
      (settings.foldl FieldMetadata.set m).Storable := by
    induction settings generalizing m with
    | nil => exact hm
    | cons s settings ih =>
        obtain ⟨hs, hsettings⟩ := List.forall_mem_cons.1 h
        exact ih (hm.set hs) hsettings
  exact { hfold storable_empty settings h with }

/-- What attributes amount to can be kept in a text. -/
theorem storable_ofAttributes (attributes : List Meta) : (ofAttributes attributes).Storable := by
  refine storable_ofSettings ?_
  intro s hs
  obtain ⟨m, -, hs⟩ := List.mem_flatMap.1 hs
  exact Setting.storable_of_mem_ofMeta m s hs

end FieldMetadata

end PayloadSchema
