import PayloadSchema.Proofs.Dictionary
import PayloadSchema.Proofs.Json.Text

/-!
# Values that are read

A free value that was read is *storable* (`Value.Storable`): its integers have 64 bits, its doubles are
finite, and the members of its objects ascend. How deep it is nested (`Value.nesting`) is bounded by the
depth at which it was read. Of storable values nothing is lost: the draft that the text of one reads as
stands for the value itself.

* `Value.storable_of_toValueAt?` — what is read is storable;
* `Value.toValueAt?_draft` — what is storable is read back.
-/

namespace PayloadSchema.Json

open Draft

namespace Number

/-- An integer of 64 bits, or a finite double. -/
def Storable : Number → Prop
  | .integer n => -(twoPow 63 : Int) ≤ n ∧ n < (twoPow 64 : Int)
  | .real x => x.isFinite = true

theorem Storable.isFinite {n : Number} (h : n.Storable) : n.isFinite = true := by
  cases n with
  | integer n => rfl
  | real x => exact h

end Number

/-! ## Numbers that are read -/

namespace Digits

/-- The digits that are taken fit into 64 bits. -/
theorem accumulate_le {cs : List Char} {significand : Nat} (h : significand ≤ wordMax) (taken : Nat) :
    (accumulate significand taken cs).1 ≤ wordMax := by
  induction cs generalizing significand taken with
  | nil => exact h
  | cons c cs ih =>
      rw [accumulate]
      split
      next hnext => exact ih hnext _
      next => exact h

theorem isFinite_neg (x : Binary64) : x.neg.isFinite = x.isFinite := by cases x <;> rfl

/-- Zero is finite. -/
theorem isFinite_of_isZero {x : Binary64} (h : x.isZero = true) : x.isFinite = true := by
  cases x with
  | finite => rfl
  | infinite => cases h
  | nan => cases h

/-- A result of scaling is finite. -/
theorem isFinite_of_scale {negative : Bool} {steps : Nat} {f x : Binary64} {exponent : Int}
    (h : scale negative steps f exponent = some x) : x.isFinite = true := by
  have hsigned {r : Binary64} (hr : r.isFinite = true) :
      (if negative = true then r.neg else r).isFinite = true := by
    split
    · rw [isFinite_neg, hr]
    · exact hr
  -- The result is checked before it is returned, whichever sign it has.
  have hchecked {r : Binary64} (h : (if r.isFinite = true then some (if negative = true then r.neg else r)
      else none) = some x) : x.isFinite = true := by
    split at h
    next hr =>
      rw [← Option.some.inj h]
      exact hsigned hr
    next => cases h
  induction steps generalizing f exponent with
  | zero =>
      rw [scale] at h
      cases h
      cases negative <;> rfl
  | succ steps ih =>
      rw [scale] at h
      -- Far from zero the exponent is brought nearer in steps of 308, unless nothing is left to scale.
      by_cases hnear : exponent.natAbs ≤ 308
      · rw [if_pos hnear] at h
        exact hchecked h
      · rw [if_neg hnear] at h
        cases hzero : f.isZero with
        | false =>
            simp only [hzero, Bool.false_eq_true, if_false] at h
            split at h
            · cases h
            · exact ih h
        | true =>
            simp only [hzero, if_true, Option.some.injEq] at h
            rw [← h]
            exact hsigned (isFinite_of_isZero hzero)

/-- A number that is read is storable. -/
theorem storable_of_toNumber? {d : Digits} {n : Number} (h : d.toNumber? = some n) : n.Storable := by
  have hword : (accumulate 0 0 d.whole).1 ≤ wordMax := accumulate_le (Nat.zero_le _) 0
  unfold toNumber? at h
  dsimp only at h
  split at h
  next hinteger =>
    cases h
    simp only [Bool.and_eq_true, Bool.or_eq_true, Bool.not_eq_true', decide_eq_true_eq] at hinteger
    have hmax : (wordMax : Int) < twoPow 64 := by decide
    -- A number without point and exponent stays an integer when it fits a word, signed or not.
    have hrange := hinteger.2
    split
    next hnegative =>
      rw [hnegative] at hrange
      have hlow : (accumulate 0 0 d.whole).1 ≤ twoPow 63 := by
        rcases hrange with hrange | hrange
        · cases hrange
        · exact hrange.2
      have hpositive : (0 : Int) < twoPow 64 := by decide
      constructor <;> omega
    next =>
      have hnonnegative : (-(twoPow 63) : Int) ≤ 0 := by decide
      constructor <;> omega
  next =>
    obtain ⟨x, hreal, rfl⟩ := Option.map_eq_some_iff.1 h
    show x.isFinite = true
    split at hreal
    · exact isFinite_of_scale hreal
    · split_ifs at hreal
      · exact isFinite_of_scale hreal
      · exact isFinite_of_scale hreal
      · cases hreal
        rfl

end Digits

/-! ## Storable values -/

namespace Value

/-- Values of which the text keeps everything. -/
inductive Storable : Value → Prop where
  | null : Storable .null
  | bool (b : Bool) : Storable (.bool b)
  | number {n : Number} (h : n.Storable) : Storable (.number n)
  | string (s : String) : Storable (.string s)
  | array {vs : List Value} (h : ∀ v ∈ vs, Storable v) : Storable (.array vs)
  | object {ms : List (String × Value)} (order : Dictionary.Ascending ms) (h : ∀ m ∈ ms, Storable m.2) :
    Storable (.object ms)

mutual
/-- How deep arrays and objects are nested in a value. -/
def nesting : Value → Nat
  | .array vs => nestingOfElements vs + 1
  | .object ms => nestingOfMembers ms + 1
  | _ => 0
/-- How deep the elements of an array are nested. -/
def nestingOfElements : List Value → Nat
  | [] => 0
  | v :: vs => max (nesting v) (nestingOfElements vs)
/-- How deep the members of an object are nested. -/
def nestingOfMembers : List (String × Value) → Nat
  | [] => 0
  | (_, v) :: ms => max (nesting v) (nestingOfMembers ms)
end

/-- The elements of an array are nested as deep as the deepest of them. -/
theorem nestingOfElements_le_iff {vs : List Value} {depth : Nat} :
    nestingOfElements vs ≤ depth ↔ ∀ v ∈ vs, v.nesting ≤ depth := by
  induction vs with
  | nil => simp [nestingOfElements]
  | cons v vs ih => simp [nestingOfElements, ih]

/-- The members of an object are nested as deep as the deepest of them. -/
theorem nestingOfMembers_le_iff {ms : List (String × Value)} {depth : Nat} :
    nestingOfMembers ms ≤ depth ↔ ∀ m ∈ ms, m.2.nesting ≤ depth := by
  induction ms with
  | nil => simp [nestingOfMembers]
  | cons m ms ih =>
      rw [nestingOfMembers, max_le_iff, ih, List.forall_mem_cons]

/-- An array is one level deeper than its elements. -/
theorem nesting_array_le_iff {vs : List Value} {depth : Nat} :
    (array vs).nesting ≤ depth + 1 ↔ ∀ v ∈ vs, v.nesting ≤ depth := by
  rw [nesting, Nat.add_le_add_iff_right, nestingOfElements_le_iff]

/-- An object is one level deeper than its members. -/
theorem nesting_object_le_iff {ms : List (String × Value)} {depth : Nat} :
    (object ms).nesting ≤ depth + 1 ↔ ∀ m ∈ ms, m.2.nesting ≤ depth := by
  rw [nesting, Nat.add_le_add_iff_right, nestingOfMembers_le_iff]

/-- The numbers of an array are those of its elements. -/
theorem allNumbers_array_iff {P : Number → Prop} {vs : List Value} :
    (array vs).AllNumbers P ↔ ∀ v ∈ vs, v.AllNumbers P := by
  unfold AllNumbers
  rw [numbers, numbersInElements_eq]
  simp only [List.mem_flatMap]
  constructor
  · intro h v hv n hn
    exact h n ⟨v, hv, hn⟩
  · rintro h n ⟨v, hv, hn⟩
    exact h v hv n hn

/-- The numbers of an object are those of its members. -/
theorem allNumbers_object_iff {P : Number → Prop} {ms : List (String × Value)} :
    (object ms).AllNumbers P ↔ ∀ m ∈ ms, m.2.AllNumbers P := by
  unfold AllNumbers
  rw [numbers, numbersInMembers_eq]
  simp only [List.mem_flatMap]
  constructor
  · intro h m hm n hn
    exact h n ⟨m, hm, hn⟩
  · rintro h n ⟨m, hm, hn⟩
    exact h m hm n hn

/-- Every number in a storable value is storable. -/
theorem Storable.allNumbers {v : Value} (h : v.Storable) : v.AllNumbers Number.Storable := by
  induction h with
  | null | bool | string =>
      intro n hn
      cases hn
  | number h =>
      intro n hn
      rw [List.mem_singleton.1 hn]
      exact h
  | array _ ih => exact allNumbers_array_iff.2 ih
  | object _ _ ih => exact allNumbers_object_iff.2 ih

theorem AllNumbers.mono {P Q : Number → Prop} {v : Value} (h : v.AllNumbers P) (hPQ : ∀ n, P n → Q n) :
    v.AllNumbers Q := fun n hn => hPQ n (h n hn)

/-- The doubles of a value that are finite are read back as the same doubles. -/
def LegibleReals (v : Value) : Prop :=
  ∀ x, Number.real x ∈ v.numbers → x.isFinite = true → (Number.real x).Legible

/-- The integers of a value are read back as the same integers. -/
def LegibleIntegers (v : Value) : Prop := v.AllNumbers fun n => ∀ i, n = .integer i → n.Legible

/-- A value is legible if its integers and its doubles are. -/
theorem legible_iff {v : Value} : v.Legible ↔ v.LegibleIntegers ∧ v.LegibleReals := by
  constructor
  · intro h
    constructor
    · rintro n hn i rfl
      exact h (.integer i) hn rfl
    · intro x hx hfinite
      exact h (.real x) hx hfinite
  · rintro ⟨hintegers, hreals⟩ n hn hfinite
    cases n with
    | integer i => exact hintegers (.integer i) hn i rfl
    | real x => exact hreals x hn hfinite

/-- The integers of a storable value have 64 bits, and so they are read back. -/
theorem Storable.legibleIntegers {v : Value} (h : v.Storable) : v.LegibleIntegers := by
  refine h.allNumbers.mono ?_
  rintro n hn i rfl
  exact Number.legible_integer hn.1 hn.2

/-! ## Reading and writing -/

/-- Elements that are read back are read back together. -/
theorem toElementsAt?_draft {depth : Nat} {vs : List Value}
    (h : ∀ v ∈ vs, toValueAt? depth v.draft = some v) : toElementsAt? depth (draftElements vs) = some vs := by
  induction vs with
  | nil => rfl
  | cons v vs ih =>
      obtain ⟨hv, hvs⟩ := List.forall_mem_cons.1 h
      rw [draftElements, toElementsAt?, hv, ih hvs]
      rfl

/-- Members that are read back are read back together. -/
theorem toMembersAt?_draft {depth : Nat} {ms : List (String × Value)}
    (h : ∀ m ∈ ms, toValueAt? depth m.2.draft = some m.2) :
    toMembersAt? depth (draftMembers ms) = some ms := by
  induction ms with
  | nil => rfl
  | cons m ms ih =>
      obtain ⟨hm, hms⟩ := List.forall_mem_cons.1 h
      rw [draftMembers, toMembersAt?, hm, ih hms]
      rfl

/-- A storable value is read back, if it is not nested too deep. -/
theorem toValueAt?_draft {v : Value} (hv : v.Storable) (hlegible : v.Legible) {depth : Nat}
    (hdepth : v.nesting ≤ depth) : toValueAt? depth v.draft = some v := by
  induction hv generalizing depth with
  | null => rfl
  | bool b => rfl
  | string s => rfl
  | @number n hn =>
      have hn := hlegible n List.mem_cons_self hn.isFinite
      obtain ⟨d, hdraft, hnumber⟩ := hn.exists_digits
      rw [draft, hdraft, toValueAt?, hnumber]
      rfl
  | @array vs _ ih =>
      cases depth with
      | zero => exact absurd hdepth (Nat.not_succ_le_zero _)
      | succ depth =>
          have hlegible := allNumbers_array_iff.1 hlegible
          have hdepth := nesting_array_le_iff.1 hdepth
          -- One level is spent on the array itself, and each element fits in what is left.
          have helements := toElementsAt?_draft fun v hv => ih v hv (hlegible v hv) (hdepth v hv)
          simp [draft, toValueAt?, Document.descend?, helements]
  | @object ms horder _ ih =>
      cases depth with
      | zero => exact absurd hdepth (Nat.not_succ_le_zero _)
      | succ depth =>
          have hlegible := allNumbers_object_iff.1 hlegible
          have hdepth := nesting_object_le_iff.1 hdepth
          have hmembers := toMembersAt?_draft fun m hm => ih m hm (hlegible m hm) (hdepth m hm)
          simp [draft, toValueAt?, Document.descend?, hmembers, ofMembers,
            Dictionary.ofList_of_ascending horder]

/-- What can be said of a value that was read at a depth. -/
def ReadAt (depth : Nat) (v : Value) : Prop := v.Storable ∧ v.nesting ≤ depth

/-- An array of values that were read at a depth could be read one level deeper. -/
theorem readAt_array {vs : List Value} {depth : Nat} (h : ∀ v ∈ vs, v.ReadAt depth) :
    (array vs).ReadAt (depth + 1) :=
  ⟨.array fun v hv => (h v hv).1, nesting_array_le_iff.2 fun v hv => (h v hv).2⟩

/-- An object of values that were read at a depth could be read one level deeper, whatever the order of its
members. -/
theorem readAt_ofMembers {ms : List (String × Value)} {depth : Nat} (h : ∀ m ∈ ms, m.2.ReadAt depth) :
    (ofMembers ms).ReadAt (depth + 1) := by
  have hmembers : ∀ m ∈ Dictionary.ofList ms, m.2.ReadAt depth := by
    intro m hm
    rcases Dictionary.mem_of_mem_insertAll hm with hm | hm
    · exact h m hm
    · cases hm
  constructor
  · exact .object (Dictionary.ascending_ofList ms) fun m hm => (hmembers m hm).1
  · exact nesting_object_le_iff.2 fun m hm => (hmembers m hm).2

mutual
/-- What is read is storable, and not nested deeper than reading went. -/
theorem readAt_of_toValueAt? {depth : Nat} : {d : Draft} → {v : Value} →
    toValueAt? depth d = some v → v.ReadAt depth
  | .null, v, h => by
      cases h
      exact ⟨.null, Nat.zero_le _⟩
  | .bool b, v, h => by
      cases h
      exact ⟨.bool b, Nat.zero_le _⟩
  | .number d, v, h => by
      obtain ⟨n, hn, rfl⟩ := Option.map_eq_some_iff.1 h
      exact ⟨.number (Digits.storable_of_toNumber? hn), Nat.zero_le _⟩
  | .string s, v, h => by
      obtain ⟨s, -, rfl⟩ := Option.map_eq_some_iff.1 h
      exact ⟨.string s, Nat.zero_le _⟩
  | .array ds, v, h => by
      cases depth with
      | zero => cases h
      | succ depth =>
          -- Containers are read one level down, by mutual recursion with their elements and members.
          simp only [toValueAt?, Document.descend?, Option.bind_eq_bind, Option.bind_some,
            Option.bind_eq_some_iff, Option.pure_def, Option.some.injEq] at h
          obtain ⟨vs, hvs, rfl⟩ := h
          exact readAt_array (readAt_of_toElementsAt? hvs)
  | .object ds, v, h => by
      cases depth with
      | zero => cases h
      | succ depth =>
          simp only [toValueAt?, Document.descend?, Option.bind_eq_bind, Option.bind_some,
            Option.bind_eq_some_iff, Option.pure_def, Option.some.injEq] at h
          obtain ⟨ms, hms, rfl⟩ := h
          exact readAt_ofMembers (readAt_of_toMembersAt? hms)
/-- The elements that are read are storable, and not nested deeper than reading went. -/
theorem readAt_of_toElementsAt? {depth : Nat} : {ds : List Draft} → {vs : List Value} →
    toElementsAt? depth ds = some vs → ∀ v ∈ vs, v.ReadAt depth
  | [], vs, h => by
      cases h
      simp
  | d :: ds, vs, h => by
      simp only [toElementsAt?, Option.bind_eq_bind, Option.bind_eq_some_iff, Option.pure_def,
        Option.some.injEq] at h
      obtain ⟨v, hv, vs, hvs, rfl⟩ := h
      exact List.forall_mem_cons.2 ⟨readAt_of_toValueAt? hv, readAt_of_toElementsAt? hvs⟩
/-- The members that are read are storable, and not nested deeper than reading went. -/
theorem readAt_of_toMembersAt? {depth : Nat} : {ds : List (Option String × Draft)} →
    {ms : List (String × Value)} → toMembersAt? depth ds = some ms → ∀ m ∈ ms, m.2.ReadAt depth
  | [], ms, h => by
      cases h
      simp
  | (k, d) :: ds, ms, h => by
      simp only [toMembersAt?, Option.bind_eq_bind, Option.bind_eq_some_iff, Option.pure_def,
        Option.some.injEq] at h
      obtain ⟨k, -, v, hv, ms, hms, rfl⟩ := h
      exact List.forall_mem_cons.2 ⟨readAt_of_toValueAt? hv, readAt_of_toMembersAt? hms⟩
end

end Value

end PayloadSchema.Json
