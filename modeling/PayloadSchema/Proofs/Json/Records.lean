import PayloadSchema.Proofs.Document
import PayloadSchema.Proofs.Json.Values
import PayloadSchema.Schema.Encode

/-!
# Parts and records of a JSON text

What is written for a part of a record is read back as this part, and a record whose members were written in
order is put together member by member (`record?_draftMembers`, `putAll_member`).
-/

namespace PayloadSchema.Json

open Draft
open Schema (member)

/-! ## Parts that may be absent -/

theorem optional?_null {α : Type} (read : Draft → Option α) : document.optional? read .null = some none := rfl

/-- A part other than null is present, and is read as such. -/
theorem optional?_of_ne {α : Type} (read : Draft → Option α) {d : Draft} (hd : d ≠ .null) :
    document.optional? read d = (read d).map some := by
  have habsent : document.absent? d = some false := by
    cases d with
    | null => exact absurd rfl hd
    | _ => rfl
  rw [Document.optional?, habsent]
  cases read d <;> rfl

/-- A part that is read, and is not null, is read as present. -/
theorem optional?_of_read {α : Type} {read : Draft → Option α} {d : Draft} {a : α} (hd : d ≠ .null)
    (h : read d = some a) : document.optional? read d = some (some a) := by
  rw [optional?_of_ne read hd, h]
  rfl

/-- A part that is read as present is read, and it is not `null`. -/
theorem of_optional? {α : Type} {read : Draft → Option α} {d : Draft} {part : Option α}
    (h : document.optional? read d = some part) : ∀ a, part = some a → read d = some a ∧ d ≠ .null := by
  rintro a rfl
  cases d with
  | null => cases h
  | _ =>
      rw [optional?_of_ne read (by simp)] at h
      obtain ⟨a', ha', heq⟩ := Option.map_eq_some_iff.1 h
      cases heq
      exact ⟨ha', by simp⟩

/-- A finite double that is legible is read back as a part of a record. -/
theorem real?_draft {x : Binary64} (hx : x.isFinite = true) (h : (Value.ofReal x).Legible) :
    (Value.ofReal x).draft ≠ .null ∧ document.real? (Value.ofReal x).draft = some x := by
  obtain ⟨d, hdraft, hnumber⟩ := (h (.real x) List.mem_cons_self hx).exists_digits
  have hdraft : (Value.ofReal x).draft = .number d := hdraft
  rw [hdraft]
  refine ⟨by simp, ?_⟩
  show d.toNumber?.map Number.toReal = some x
  rw [hnumber]
  rfl

/-- A double that is not finite is read back as null. -/
theorem draft_ofReal_of_not_finite {x : Binary64} (hx : x.isFinite = false) : (Value.ofReal x).draft = .null :=
  Number.draft_of_not_finite hx

/-- A natural number of 64 bits is read back as a part of a record. -/
theorem natural?_draft {n : Nat} (hn : n < twoPow 64) :
    (Value.ofInt n).draft ≠ .null ∧ document.natural? (Value.ofInt n).draft = some n := by
  have hlow : -(twoPow 63 : Int) ≤ n := by
    have : -(twoPow 63 : Int) ≤ 0 := by decide
    omega
  have hlegible : (Number.integer n).Legible := Number.legible_integer hlow (Int.ofNat_lt.2 hn)
  obtain ⟨d, hdraft, hnumber⟩ := hlegible.exists_digits
  have hdraft : (Value.ofInt n).draft = .number d := hdraft
  rw [hdraft]
  refine ⟨by simp, ?_⟩
  simp [document, hnumber]

/-- A value that is read back and is not null has no null for its draft. -/
theorem draft_ne_null {v : Value} {depth : Nat} (hv : v ≠ .null)
    (h : toValueAt? depth v.draft = some v) : v.draft ≠ .null := by
  intro heq
  rw [heq] at h
  cases h
  exact hv rfl

/-- Only null is read as the null value. -/
theorem ne_null_of_toValueAt? {d : Draft} {v : Value} {depth : Nat} (h : toValueAt? depth d = some v)
    (hd : d ≠ .null) : v ≠ .null := by
  rintro rfl
  -- Every draft is read to a value of its own kind.
  cases d with
  | null => exact hd rfl
  | bool b => cases h
  | number digits =>
      obtain ⟨n, -, heq⟩ := Option.map_eq_some_iff.1 h
      cases heq
  | string s =>
      obtain ⟨s, -, heq⟩ := Option.map_eq_some_iff.1 h
      cases heq
  | array ds =>
      obtain ⟨below, -, h⟩ := Option.bind_eq_some_iff.1 h
      obtain ⟨vs, -, heq⟩ := Option.bind_eq_some_iff.1 h
      cases heq
  | object ds =>
      obtain ⟨below, -, h⟩ := Option.bind_eq_some_iff.1 h
      obtain ⟨ms, -, heq⟩ := Option.bind_eq_some_iff.1 h
      cases heq

/-- A natural number that is read has 64 bits. -/
theorem lt_of_natural? {d : Draft} {n : Nat} (h : document.natural? d = some n) : n < twoPow 64 := by
  cases d with
  | number digits =>
      dsimp only [document] at h
      split at h
      next n' hnumber =>
        cases h
        exact Int.ofNat_lt.1 (Digits.storable_of_toNumber? hnumber).2
      next => cases h
  | _ => cases h

/-- The logarithm of a number within a power of two, shifted by some bits. -/
theorem log2_mul_twoPow_le {n k : Nat} (h : n ≤ twoPow k) (j : Nat) :
    Nat.log2 (n * twoPow j) ≤ k + j := by
  by_cases hzero : n * twoPow j = 0
  · rw [hzero]
    exact Nat.zero_le _
  · have hle : n * twoPow j ≤ 2 ^ (k + j) := by
      rw [Nat.pow_add]
      exact Nat.mul_le_mul_right _ h
    rw [← Nat.lt_succ_iff, Nat.log2_lt hzero]
    exact Nat.lt_of_le_of_lt hle (Nat.pow_lt_pow_right (by decide) (Nat.lt_succ_self _))

/-- A double is finite if what it is rounded from is not too large. -/
theorem isFinite_ofUnits {negative : Bool} {units den : Nat} (h : Nat.log2 (units / den) < 2097) :
    (Binary64.ofUnits negative units den).isFinite = true := by
  unfold Binary64.ofUnits
  generalize Nat.log2 (units / den) = k at h ⊢
  generalize Binary64.roundDiv units (den * twoPow (k - 52)) = rounded
  dsimp only
  split
  · rw [if_neg (by dsimp only; omega)]
    rfl
  · rw [if_neg (by dsimp only; omega)]
    rfl

/-- The double nearest to a number of 64 bits is finite. -/
theorem isFinite_ofRatio {negative : Bool} {n : Nat} (hn : n ≤ twoPow 64) :
    (Binary64.ofRatio negative n 1).isFinite = true := by
  refine isFinite_ofUnits (Nat.lt_of_le_of_lt ?_ (by decide : 64 + 1074 < 2097))
  rw [Nat.div_one]
  exact log2_mul_twoPow_le hn 1074

/-- A double that is read is finite. -/
theorem isFinite_of_real? {d : Draft} {x : Binary64} (h : document.real? d = some x) : x.isFinite = true := by
  cases d with
  | number digits =>
      obtain ⟨n, hnumber, rfl⟩ := Option.map_eq_some_iff.1 h
      have hstorable := Digits.storable_of_toNumber? hnumber
      -- An integer in the place of a real is converted, and the range of integers keeps that finite.
      cases n with
      | real x => exact hstorable
      | integer n =>
          cases n with
          | ofNat n => exact isFinite_ofRatio (Nat.le_of_lt (Int.ofNat_lt.1 hstorable.2))
          | negSucc n =>
              have hlow := hstorable.1
              have hle : twoPow 63 ≤ twoPow 64 := by decide
              exact isFinite_ofRatio (by omega)
  | _ => cases h

/-! ## Records -/

section

variable {α β γ : Type} {put : String → Draft → γ → Option γ}

/-- Members put into a record one after another, as they are read. -/
def putAll (put : String → Draft → γ → Option γ) (record : γ) (ms : List (String × Value)) : Option γ :=
  (ms.map fun m => (m.1, m.2.draft)).foldlM (fun record m => put m.1 m.2 record) record

/-- Members are put into a record one after another. -/
theorem putAll_append (put : String → Draft → γ → Option γ) (record : γ) (ms ms' : List (String × Value)) :
    putAll put record (ms ++ ms') = (putAll put record ms).bind fun record => putAll put record ms' := by
  rw [putAll, List.map_append, List.foldlM_append]
  rfl

/-- A single member is put in as it is read. -/
theorem putAll_singleton (put : String → Draft → γ → Option γ) (record : γ) (name : String) (v : Value) :
    putAll put record [(name, v)] = put name v.draft record := by
  simp [putAll]

/-- A member is read and put in, or there is none. -/
theorem putAll_member {name : String} {encode : α → Value} {part : Option α} {read : Draft → Option β}
    {f : γ → Option β → γ}
    (hput : ∀ d record, put name d record =
      (document.optional? read d).bind fun part => some (f record part))
    {part' : Option β} (hnone : part = none → part' = none)
    (hsome : ∀ a, part = some a → document.optional? read (encode a).draft = some part')
    {record : γ} (hrecord : f record none = record) :
    putAll put record (member name encode part) = some (f record part') := by
  cases part with
  | none =>
      rw [hnone rfl, hrecord]
      rfl
  | some a => simp [putAll, member, hput, hsome a rfl]

/-- A record whose members were written in the order of the known names is put together from them. -/
theorem record?_draftMembers {known : List String} {ms : List (String × Value)} (start : γ)
    (hknown : known.Nodup) (horder : (ms.map (·.1)).Sublist known) :
    Document.record? known put start (Value.draftMembers ms) = putAll put start ms := by
  have hdrafts : Value.draftMembers ms = (ms.map fun m => (m.1, m.2.draft)).map fun m => (some m.1, m.2) := by
    rw [Value.draftMembers_eq, List.map_map]
    rfl
  have hnames : (ms.map fun m => (m.1, m.2.draft)).map (·.1) = ms.map (·.1) := by
    rw [List.map_map]
    rfl
  rw [hdrafts]
  exact Document.record?_eq_foldlM start hknown (hnames ▸ horder)

/-- The name of a member that may be left out is written once at most. -/
theorem sublist_member (name : String) (encode : α → Value) (part : Option α) :
    ((member name encode part).map (·.1)).Sublist [name] := by
  cases part <;> simp [member]

/-- What holds of a member that may be left out is asked only if it is there. -/
theorem forall_mem_member {P : Value → Prop} {name : String} {encode : α → Value} {part : Option α} :
    (∀ m ∈ member name encode part, P m.2) ↔ ∀ a, part = some a → P (encode a) := by
  cases part <;> simp [member]

end

end PayloadSchema.Json
