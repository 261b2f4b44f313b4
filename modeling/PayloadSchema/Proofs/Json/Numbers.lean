import Mathlib.Tactic.SplitIfs
import Mathlib.Tactic.ByContra
import Mathlib.Data.List.TakeWhile
import PayloadSchema.Json.Draft
import PayloadSchema.Json.Writer

/-!
# The texts of numbers

Every text that is written for a number is one that is read as a number, and it is read up to its end
wherever it stands (`Follows` says what can stand after it). A number is *legible* if what is read is the
same number (`Number.Legible`).

* `Number.value_render` — the text of a number is read as its draft;
* `Number.legible_integer` — integers of 64 bits are legible.

Whether a double is legible is not the matter of this module: the digits that are written are the shortest
(`Decimal.shortest`), but reading rounds more than once (`Digits.toReal?`).
-/

namespace PayloadSchema.Json

open Draft

/-! ## Scanning -/

/-- What can stand after a number in a written text. -/
inductive Follows : List Char → Prop where
  | nil : Follows []
  | comma (rest : List Char) : Follows (',' :: rest)
  | newline (rest : List Char) : Follows ('\n' :: rest)

section

variable {rest : List Char}

/-- What stands after a number does not add to its digits. -/
theorem Follows.takeWhile_append (h : Follows rest) (cs : List Char) :
    (cs ++ rest).takeWhile Char.isDigit = cs.takeWhile Char.isDigit := by
  induction cs with
  | nil => cases h <;> rfl
  | cons c cs ih => simp only [List.cons_append, List.takeWhile_cons, ih]

/-- What stands after a number is behind whatever follows its digits. -/
theorem Follows.dropWhile_append (h : Follows rest) (cs : List Char) :
    (cs ++ rest).dropWhile Char.isDigit = cs.dropWhile Char.isDigit ++ rest := by
  induction cs with
  | nil => cases h <;> rfl
  | cons c cs ih =>
      simp only [List.cons_append, List.dropWhile_cons, ih]
      split <;> rfl

/-- What stands after a number is left over when its fraction is read. -/
theorem fraction?_append (h : Follows rest) (cs : List Char) :
    fraction? (cs ++ rest) = (fraction? cs).map fun (f, left) => (f, left ++ rest) := by
  cases cs with
  | nil => cases h <;> rfl
  | cons c cs =>
      by_cases hc : c = '.'
      · subst hc
        simp only [List.cons_append, fraction?, h.takeWhile_append, h.dropWhile_append]
        split <;> rfl
      · simp [fraction?, hc]

/-- What stands after a number is left over when the digits of its exponent are read. -/
theorem exponentDigits?_append (h : Follows rest) (below : Bool) (cs : List Char) :
    exponentDigits? below (cs ++ rest) = (exponentDigits? below cs).map fun (e, left) => (e, left ++ rest) := by
  simp only [exponentDigits?, h.takeWhile_append, h.dropWhile_append]
  split <;> rfl

/-- What stands after a number is left over when its exponent is read. -/
theorem exponent?_append (h : Follows rest) (cs : List Char) :
    exponent? (cs ++ rest) = (exponent? cs).map fun (e, left) => (e, left ++ rest) := by
  cases cs with
  | nil => cases h <;> rfl
  | cons c cs =>
      simp only [List.cons_append, exponent?]
      split
      · cases cs with
        | nil => cases h <;> rfl
        | cons sign cs =>
            -- A sign is optional, so a third case is a digit straight away.
            by_cases hplus : sign = '+'
            · subst hplus
              exact exponentDigits?_append h false cs
            · by_cases hminus : sign = '-'
              · subst hminus
                exact exponentDigits?_append h true cs
              · simpa [hplus, hminus] using exponentDigits?_append h false (sign :: cs)
      · rfl

/-- What stands after a number is left over. -/
theorem number?_append (h : Follows rest) (negative : Bool) (cs : List Char) :
    number? negative (cs ++ rest) = (number? negative cs).map fun (d, left) => (d, left ++ rest) := by
  simp only [number?, h.takeWhile_append, h.dropWhile_append]
  split
  · rfl
  · rw [fraction?_append h]
    cases fraction? (cs.dropWhile Char.isDigit) with
    | none => rfl
    | some found =>
        simp only [Option.map_some, Option.bind_eq_bind, Option.bind_some, exponent?_append h]
        cases exponent? found.2 <;> rfl

end

/-- What is read as a number begins with a digit. -/
theorem exists_of_number? {negative : Bool} {cs : List Char} {found : Digits × List Char}
    (h : number? negative cs = some found) : ∃ c rest, cs = c :: rest ∧ c.isDigit = true := by
  cases cs with
  | nil => simp [number?] at h
  | cons c rest =>
      refine ⟨c, rest, rfl, ?_⟩
      by_contra hc
      simp [number?, hc] at h

/-- A value that begins with a digit is read as a number. -/
theorem value_of_digit {budget : Nat} {cs rest : List Char} {c : Char} (h : skipSpace cs = c :: rest)
    (hc : c.isDigit = true) :
    value (budget + 1) cs = (number? false (c :: rest)).map fun (d, rest) => (.number d, rest) := by
  have hne (c' : Char) (hc' : c'.isDigit = false) : c ≠ c' := by
    rintro rfl
    rw [hc] at hc'
    cases hc'
  rw [value, h]
  split
  all_goals first
    | rfl
    | (next heq => exact absurd (List.cons.inj heq).1 (hne _ (by decide)))

/-- A value that begins with a minus is read as a negative number. -/
theorem value_of_minus {budget : Nat} {cs rest : List Char} (h : skipSpace cs = '-' :: rest) :
    value (budget + 1) cs = (number? true rest).map fun (d, rest) => (.number d, rest) := by
  rw [value, h]
  rfl

/-! ## The parts of a number -/

/-- Digits, at least one. -/
structure AreDigits (ds : List Char) : Prop where
  ne_nil : ds ≠ []
  isDigit : ∀ c ∈ ds, c.isDigit = true

/-- Digits that may stand before the point: a zero stands there alone. -/
structure AreWhole (ds : List Char) : Prop extends AreDigits ds where
  head : ds.head? = some '0' → ds = ['0']

/-- No digit stands at the start. -/
def NoDigit (cs : List Char) : Prop := ∀ c rest, cs = c :: rest → c.isDigit = false

theorem noDigit_nil : NoDigit [] := by
  rintro _ _ ⟨⟩

theorem noDigit_cons {c : Char} (h : c.isDigit = false) (cs : List Char) : NoDigit (c :: cs) := by
  rintro _ _ ⟨⟩
  exact h

namespace AreDigits

variable {ds cs : List Char}

/-- Digits are taken up to where there are no more. -/
theorem takeWhile_append (h : AreDigits ds) (hcs : NoDigit cs) : (ds ++ cs).takeWhile Char.isDigit = ds := by
  rw [List.takeWhile_append_of_pos h.isDigit]
  cases cs with
  | nil => exact List.append_nil ds
  | cons c cs => rw [List.takeWhile_cons_of_neg (by rw [hcs c cs rfl]; decide), List.append_nil]

/-- Behind the digits stands what follows them. -/
theorem dropWhile_append (h : AreDigits ds) (hcs : NoDigit cs) : (ds ++ cs).dropWhile Char.isDigit = cs := by
  rw [List.dropWhile_append_of_pos h.isDigit]
  cases cs with
  | nil => rfl
  | cons c cs => rw [List.dropWhile_cons_of_neg (by rw [hcs c cs rfl]; decide)]

theorem append {es : List Char} (h : AreDigits ds) (hes : ∀ c ∈ es, c.isDigit = true) : AreDigits (ds ++ es) :=
  ⟨List.append_ne_nil_of_left_ne_nil h.ne_nil es, List.forall_mem_append.2 ⟨h.isDigit, hes⟩⟩

/-- A single digit stands before the point, be it a zero or not. -/
theorem areWhole {c : Char} (hc : c.isDigit = true) : AreWhole [c] where
  ne_nil := List.cons_ne_nil c []
  isDigit := List.forall_mem_singleton.2 hc
  head h := by rw [Option.some.inj h]

end AreDigits

/-- A point and some digits are read as a fraction. -/
theorem fraction?_eq {ds cs : List Char} (hds : AreDigits ds) (hcs : NoDigit cs) :
    fraction? ('.' :: (ds ++ cs)) = some (some ds, cs) := by
  rw [fraction?, hds.takeWhile_append hcs, hds.dropWhile_append hcs, if_neg hds.ne_nil]

/-- Digits alone are read as those of an exponent. -/
theorem exponentDigits?_eq {ds : List Char} (hds : AreDigits ds) (below : Bool) :
    exponentDigits? below ds = some (some (below, ds), []) := by
  have htake := hds.takeWhile_append noDigit_nil
  have hdrop := hds.dropWhile_append noDigit_nil
  rw [List.append_nil] at htake hdrop
  rw [exponentDigits?, htake, hdrop, if_neg hds.ne_nil]

/-- Behind the digits before the point, a number goes on with its fraction and its exponent. -/
theorem number?_eq {ds cs : List Char} (hds : AreWhole ds) (hcs : NoDigit cs) (negative : Bool) :
    number? negative (ds ++ cs) = (fraction? cs).bind fun (fraction, rest) =>
      (exponent? rest).map fun (exponent, rest) => (⟨negative, ds, fraction, exponent⟩, rest) := by
  have hstart : ¬ (ds = [] ∨ (ds.head? = some '0' ∧ ds ≠ ['0'])) := by
    rintro (hnil | ⟨hhead, hne⟩)
    · exact hds.ne_nil hnil
    · exact hne (hds.head hhead)
  rw [number?, hds.takeWhile_append hcs, hds.dropWhile_append hcs, if_neg hstart]
  cases fraction? cs with
  | none => rfl
  | some found =>
      simp only [Option.bind_eq_bind, Option.bind_some]
      cases exponent? found.2 <;> rfl

/-- A text that is read as a number, with any sign before it. -/
def IsNumber (cs : List Char) : Prop := ∀ negative, ∃ d, number? negative cs = some (d, [])

/-- Whole digits, a point and some digits are a number. -/
theorem isNumber_point {ds fs : List Char} (hds : AreWhole ds) (hfs : AreDigits fs) :
    IsNumber (ds ++ '.' :: fs) := by
  intro negative
  have hfraction := fraction?_eq hfs noDigit_nil
  rw [List.append_nil] at hfraction
  rw [number?_eq hds (noDigit_cons (by decide) fs), hfraction]
  exact ⟨_, rfl⟩

/-! ## Layout -/

/-- The decimal digits of a natural number are digits. -/
theorem areDigits_toDigits (n : Nat) : AreDigits (Nat.toDigits 10 n) :=
  ⟨Nat.toDigits_ne_nil, fun _ => Nat.isDigit_of_mem_toDigits (by decide) (by decide)⟩

/-- Taking more digits never makes a number smaller. -/
theorem le_ofDigitChars (cs : List Char) (n : Nat) : n ≤ Nat.ofDigitChars 10 cs n := by
  induction cs generalizing n with
  | nil => exact Nat.le_refl n
  | cons c cs ih =>
      have hstep : Nat.ofDigitChars 10 (c :: cs) n = Nat.ofDigitChars 10 cs (10 * n + Digits.digit c) := rfl
      rw [hstep]
      have := ih (10 * n + Digits.digit c)
      omega

/-- Digits are taken as long as the number fits into 64 bits. -/
theorem Digits.accumulate_eq {cs : List Char} {significand : Nat}
    (h : Nat.ofDigitChars 10 cs significand ≤ wordMax) (taken : Nat) :
    accumulate significand taken cs = (Nat.ofDigitChars 10 cs significand, taken + cs.length) := by
  induction cs generalizing significand taken with
  | nil => rfl
  | cons c cs ih =>
      have hstep : Nat.ofDigitChars 10 (c :: cs) significand =
          Nat.ofDigitChars 10 cs (10 * significand + digit c) := rfl
      rw [hstep] at h ⊢
      have hnext : 10 * significand + digit c ≤ wordMax := Nat.le_trans (le_ofDigitChars cs _) h
      rw [accumulate]
      simp only [hnext, if_true]
      rw [ih h, List.length_cons, Nat.add_right_comm, Nat.add_assoc]

/-- The digits of a positive number do not begin with a zero. -/
theorem head?_toDigits {n : Nat} (hn : 0 < n) : (Nat.toDigits 10 n).head? ≠ some '0' := by
  induction n using Nat.strongRecOn with
  | ind n ih =>
      by_cases hsmall : n < 10
      · rw [Nat.toDigits_of_lt_base hsmall]
        have hdigit : ∀ n < 10, 0 < n → [n.digitChar].head? ≠ some '0' := by decide
        exact hdigit n hsmall hn
      · have hrest := ih (n / 10) (by omega) (by omega)
        rw [Nat.toDigits_of_base_le (by decide) (by omega)]
        cases hdigits : Nat.toDigits 10 (n / 10) with
        | nil => exact absurd hdigits Nat.toDigits_ne_nil
        | cons c cs =>
            rw [hdigits] at hrest
            exact hrest


/-- The digits of a natural number may stand before a point. -/
theorem areWhole_toDigits (n : Nat) : AreWhole (Nat.toDigits 10 n) where
  toAreDigits := areDigits_toDigits n
  head h := by
    rcases Nat.eq_zero_or_pos n with rfl | hn
    · rfl
    · exact absurd h (head?_toDigits hn)

/-- The digits of a natural number are read as a number without fraction and exponent. -/
theorem number?_toDigits (negative : Bool) (n : Nat) :
    number? negative (Nat.toDigits 10 n) = some (⟨negative, Nat.toDigits 10 n, none, none⟩, []) := by
  have hnumber := number?_eq (areWhole_toDigits n) noDigit_nil negative
  rw [List.append_nil] at hnumber
  rw [hnumber]
  rfl

theorem toString_negSucc (n : Nat) :
    toString (Int.negSucc n) = "-" ++ String.ofList (Nat.toDigits 10 (n + 1)) := rfl

/-- The exponent of a number with its point behind so many digits is read, with a plus before it or not. -/
theorem exists_exponent? (point : Int) :
    ∃ e, exponent? ('e' :: ((if 1 < point then "+" else "") ++ toString (point - 1)).toList) =
      some (some e, []) := by
  cases hexponent : point - 1 with
  | ofNat n =>
      have hdigits := areDigits_toDigits n
      change ∃ e, exponent? ('e' :: ((if 1 < point then "+" else "") ++
        String.ofList (Nat.toDigits 10 n)).toList) = _
      split_ifs
      · refine ⟨(false, Nat.toDigits 10 n), ?_⟩
        simp only [String.toList_append, String.toList_ofList]
        exact exponentDigits?_eq hdigits false
      · refine ⟨(false, Nat.toDigits 10 n), ?_⟩
        rw [String.empty_append, String.toList_ofList]
        obtain ⟨c, cs, hcs⟩ := List.exists_cons_of_ne_nil hdigits.ne_nil
        have hc : c.isDigit = true := hdigits.isDigit c (by rw [hcs]; exact List.mem_cons_self)
        -- Without a sign the digits follow at once, and a digit is neither of the two signs.
        have hne (sign : Char) (hsign : sign.isDigit = false) : c ≠ sign := by
          rintro rfl
          rw [hc] at hsign
          cases hsign
        have hread := exponentDigits?_eq hdigits false
        rw [hcs] at hread ⊢
        simpa [exponent?, hne '+' (by decide), hne '-' (by decide)] using hread
  | negSucc n =>
      have hpoint : ¬ 1 < point := by omega
      refine ⟨(true, Nat.toDigits 10 (n + 1)), ?_⟩
      rw [if_neg hpoint, toString_negSucc, String.empty_append]
      simp only [String.toList_append, String.toList_ofList]
      exact exponentDigits?_eq (areDigits_toDigits (n + 1)) true

/-- A digit, perhaps some behind a point, and an exponent are a number. -/
theorem isNumber_exponent {c : Char} {fs : List Char} (hc : c.isDigit = true)
    (hfs : fs = [] ∨ AreDigits fs) (point : Int) :
    IsNumber (c :: ((if fs = [] then [] else '.' :: fs) ++
      'e' :: ((if 1 < point then "+" else "") ++ toString (point - 1)).toList)) := by
  intro negative
  obtain ⟨e, he⟩ := exists_exponent? point
  generalize ((if 1 < point then "+" else "") ++ toString (point - 1)).toList = exponent at he
  have hstop : NoDigit ('e' :: exponent) := noDigit_cons rfl _
  have hwhole := AreDigits.areWhole hc
  -- With one digit the point is left out, with more it stands behind the first.
  rcases hfs with rfl | hfs
  · have hnumber := number?_eq hwhole hstop negative
    refine ⟨⟨negative, [c], none, some e⟩, hnumber.trans ?_⟩
    have hfraction : fraction? ('e' :: exponent) = some (none, 'e' :: exponent) := rfl
    rw [hfraction, Option.bind_some]
    dsimp only
    rw [he]
    rfl
  · have hpoint : NoDigit ('.' :: (fs ++ 'e' :: exponent)) := noDigit_cons rfl _
    have hnumber := number?_eq hwhole hpoint negative
    refine ⟨⟨negative, [c], some fs, some e⟩, ?_⟩
    rw [if_neg hfs.ne_nil]
    refine hnumber.trans ?_
    rw [fraction?_eq hfs hstop, Option.bind_some]
    dsimp only
    rw [he]
    rfl

/-- Digits with a point between them are a number: there are several then, so the first one is no zero. -/
theorem isNumber_within {ds : List Char} (hds : AreWhole ds) {k : Nat} (hpos : 0 < k) (hlt : k < ds.length) :
    IsNumber (ds.take k ++ '.' :: ds.drop k) := by
  obtain ⟨c, cs, rfl⟩ := List.exists_cons_of_ne_nil hds.ne_nil
  obtain ⟨k, rfl⟩ := Nat.exists_eq_add_of_lt hpos
  rw [List.length_cons] at hlt
  -- The digits in front of the point start as the whole number does, and both parts are not empty.
  have hfront : AreDigits ((c :: cs).take (0 + k + 1)) :=
    ⟨by simp, fun b hb => hds.isDigit b (List.mem_of_mem_take hb)⟩
  have hback : AreDigits ((c :: cs).drop (0 + k + 1)) := by
    refine ⟨?_, fun b hb => hds.isDigit b (List.mem_of_mem_drop hb)⟩
    rw [Ne, List.drop_eq_nil_iff, List.length_cons]
    omega
  refine isNumber_point ⟨hfront, ?_⟩ hback
  intro hhead
  have hhead : (c :: cs).head? = some '0' := by
    simpa using hhead
  have hdigits := hds.head hhead
  rw [List.cons_eq_cons] at hdigits
  rw [hdigits.2, List.length_nil] at hlt
  omega

/-- Digits are laid out as a number, if a zero is not scaled. -/
theorem isNumber_layout {d : Decimal} (hzero : d.digits = 0 → d.exponent = 0) :
    IsNumber (Decimal.layout true d).toList := by
  have hds : AreWhole (Decimal.digitsOf d.digits) := areWhole_toDigits d.digits
  -- A leading zero is allowed only when it is the whole number.
  have hone : Decimal.digitsOf d.digits = ['0'] → d.exponent = 0 := by
    intro hdigits
    apply hzero
    by_contra hne
    refine head?_toDigits (Nat.pos_of_ne_zero hne) ?_
    rw [show Nat.toDigits 10 d.digits = ['0'] from hdigits]
    rfl
  have hzeros (n : Nat) : ∀ c ∈ List.replicate n '0', c.isDigit = true := by
    intro c hc
    rw [List.eq_of_mem_replicate hc]
    rfl
  unfold Decimal.layout
  generalize Decimal.digitsOf d.digits = ds at hds hone
  simp only [Bool.true_and, decide_eq_true_eq]
  obtain ⟨c, cs, rfl⟩ := List.exists_cons_of_ne_nil hds.ne_nil
  have hc := hds.isDigit c List.mem_cons_self
  split
  -- Four layouts: zeros appended, a point inside, zeros in front, or an exponent.
  next hwhole =>
    simp only [String.toList_append, String.toList_ofList]
    change IsNumber (_ ++ '.' :: ['0'])
    refine isNumber_point ⟨hds.toAreDigits.append (hzeros _), ?_⟩ (AreDigits.areWhole rfl).toAreDigits
    intro hhead
    have hdigits := hds.head hhead
    rw [hdigits, hone hdigits]
    rfl
  next hwhole =>
    split
    next hpoint =>
      simp only [String.toList_append, String.toList_ofList, List.append_assoc]
      rw [List.length_cons] at hwhole hpoint
      apply isNumber_within hds
      · rw [List.length_cons]
        omega
      · rw [List.length_cons]
        omega
    next hpoint =>
      split
      next hbelow =>
        simp only [String.toList_append, String.toList_ofList]
        change IsNumber (['0'] ++ '.' :: (List.replicate _ '0' ++ c :: cs))
        refine isNumber_point (AreDigits.areWhole rfl) ⟨List.append_ne_nil_of_right_ne_nil _ hds.ne_nil, ?_⟩
        exact List.forall_mem_append.2 ⟨hzeros _, hds.isDigit⟩
      next hbelow =>
        cases cs with
        | nil =>
            have hnumber := isNumber_exponent hc (.inl rfl) (([c].length : Int) + d.exponent)
            simpa using hnumber
        | cons c' cs =>
            have hcs : AreDigits (c' :: cs) :=
              ⟨List.cons_ne_nil c' cs, fun b hb => hds.isDigit b (List.mem_cons_of_mem c hb)⟩
            have hnumber := isNumber_exponent hc (.inr hcs) (((c :: c' :: cs).length : Int) + d.exponent)
            simpa using hnumber

/-! ## The shortest digits -/

/-- Leaving out the zeros at its end makes no decimal zero. -/
theorem strip_ne_zero (n : Nat) {d : Decimal} (hd : d.digits ≠ 0) : (Decimal.strip n d).digits ≠ 0 := by
  induction n generalizing d with
  | zero => exact hd
  | succ n ih =>
      rw [Decimal.strip]
      split
      next hzero => exact ih (by dsimp only; omega)
      next => exact hd

/-- Digits that read back as a positive double are not zero. -/
theorem candidate?_ne_zero {m e : Nat} (hm : m ≠ 0) {exponent : Int} {d : Decimal}
    (h : Decimal.candidate? m e exponent = some d) : d.digits ≠ 0 := by
  -- Digits that are all zero read back as zero, and the number is not zero.
  have hfits (n : Nat) (hn : decide (Decimal.nearest ⟨false, n, exponent⟩ = .finite false m e) = true) :
      n ≠ 0 := by
    rintro rfl
    have hzero : Decimal.nearest ⟨false, 0, exponent⟩ = .finite false 0 0 := rfl
    rw [hzero, decide_eq_true_eq] at hn
    cases hn
    exact hm rfl
  unfold Decimal.candidate? at h
  dsimp only at h
  split at h
  next hlow hhigh =>
    cases h
    unfold Decimal.nearer
    dsimp only
    split_ifs
    · exact hfits _ hlow
    · exact hfits _ hhigh
  next hlow _ =>
    cases h
    exact hfits _ hlow
  next _ hhigh =>
    cases h
    exact hfits _ hhigh
  next => cases h

/-- The shortest digits of a positive double are not zero, except that a double without any stands as an
unscaled zero. -/
theorem shortest_exponent {m e : Nat} (hm : m ≠ 0) (hzero : (Decimal.shortest m e).digits = 0) :
    (Decimal.shortest m e).exponent = 0 := by
  unfold Decimal.shortest at hzero ⊢
  dsimp only at hzero ⊢
  cases hfound : (List.range 18).findSome? fun (count : Nat) =>
      Decimal.candidate? m e (Decimal.order m e - count) with
  | none => rfl
  | some d =>
      obtain ⟨count, -, hcandidate⟩ := List.exists_of_findSome?_eq_some hfound
      rw [hfound] at hzero
      exact absurd hzero (strip_ne_zero 20 (candidate?_ne_zero hm hcandidate))

/-! ## Numbers -/

theorem isNumber_toDigits (n : Nat) : IsNumber (Nat.toDigits 10 n) := fun negative =>
  ⟨_, number?_toDigits negative n⟩

namespace Number

/-- Whether a number has a text: an infinity and not-a-number have none. -/
def isFinite : Number → Bool
  | .integer _ => true
  | .real x => x.isFinite

/-- The text of a number is one that is read as a number, perhaps after a minus. -/
theorem render_cases {n : Number} (h : n.isFinite = true) :
    IsNumber n.render.toList ∨ ∃ cs, n.render.toList = '-' :: cs ∧ IsNumber cs := by
  -- A sign in front is the only difference between a number and its negative.
  have hsigned {text : String} (hbody : IsNumber text.toList) (negative : Bool) :
      IsNumber (if negative = true then "-" ++ text else text).toList ∨
        ∃ cs, (if negative = true then "-" ++ text else text).toList = '-' :: cs ∧ IsNumber cs := by
    cases negative with
    | false => exact .inl hbody
    | true =>
        refine .inr ⟨text.toList, ?_, hbody⟩
        simp
  cases n with
  | integer n =>
      have hdigits (n : Nat) : IsNumber (String.ofList (Nat.toDigits 10 n)).toList := by
        rw [String.toList_ofList]
        exact isNumber_toDigits n
      cases n with
      | ofNat n => exact hsigned (hdigits n) false
      | negSucc n => exact hsigned (hdigits (n + 1)) true
  | real x =>
      cases x with
      | finite negative m e =>
          refine hsigned ?_ negative
          split_ifs with hm
          · exact isNumber_point (AreDigits.areWhole rfl) (AreDigits.areWhole rfl).toAreDigits
          · exact isNumber_layout (shortest_exponent hm)
      | infinite => cases h
      | nan => cases h

/-- The draft that the text of a number reads as; what is no number has the text `null`. -/
def draft (n : Number) : Draft := (Draft.ofText? n.render).getD .null

/-- An infinity and not-a-number are written as null. -/
theorem render_of_not_finite {n : Number} (h : n.isFinite = false) : n.render = "null" := by
  cases n with
  | integer n => cases h
  | real x =>
      have hx : x.isFinite = false := h
      rw [render, hx]
      rfl

/-- What is written for an infinity or not-a-number is read as null. -/
theorem draft_of_not_finite {n : Number} (h : n.isFinite = false) : n.draft = .null := by
  rw [draft, render_of_not_finite h]
  rfl

end Number

/-- A number is read from its first digit on, wherever it stands. -/
theorem value_of_number? {cs rest : List Char} {d : Digits} (h : number? false cs = some (d, []))
    (hrest : Follows rest) (budget : Nat) : value (budget + 1) (cs ++ rest) = some (.number d, rest) := by
  obtain ⟨c, cs, rfl, hc⟩ := exists_of_number? h
  have hspace : isSpace c = false := by
    have hne (c' : Char) (hc' : c'.isDigit = false) : c ≠ c' := by
      rintro rfl
      rw [hc] at hc'
      cases hc'
    simp [isSpace, hne ' ' rfl, hne '\n' rfl, hne '\t' rfl, hne '\r' rfl]
  have hstart : skipSpace (c :: cs ++ rest) = c :: (cs ++ rest) := by
    rw [List.cons_append, skipSpace, List.dropWhile_cons, if_neg (by rw [hspace]; decide)]
  rw [value_of_digit hstart hc, ← List.cons_append, number?_append hrest, h]
  rfl

/-- A number behind a minus is read wherever it stands. -/
theorem value_of_negative {cs rest : List Char} {d : Digits} (h : number? true cs = some (d, []))
    (hrest : Follows rest) (budget : Nat) :
    value (budget + 1) ('-' :: cs ++ rest) = some (.number d, rest) := by
  have hstart : skipSpace ('-' :: cs ++ rest) = '-' :: (cs ++ rest) := rfl
  rw [value_of_minus hstart, number?_append hrest, h]
  rfl

/-- A text is read as the draft that it is read as with every budget that its length bounds. -/
theorem ofText?_of_value {text : String} {d : Draft}
    (h : ∀ budget, text.toList.length ≤ budget → value budget text.toList = some (d, [])) :
    Draft.ofText? text = some d := by
  have hlength : text.toList.length ≤ 2 * text.toList.length + 2 := by omega
  rw [Draft.ofText?, h _ hlength]
  rfl

namespace Number

/-- Digits that are read wherever a number stands are read of its text alone. -/
theorem ofText?_of_digits {n : Number} {d : Digits}
    (h : ∀ budget rest, Follows rest → value (budget + 1) (n.render.toList ++ rest) = some (.number d, rest)) :
    Draft.ofText? n.render = some (.number d) := by
  refine ofText?_of_value ?_
  intro budget hlength
  have hread := h (budget - 1) [] .nil
  rw [List.append_nil] at hread
  cases budget with
  | zero =>
      rw [List.eq_nil_of_length_eq_zero (Nat.le_zero.1 hlength)] at hread
      cases hread
  | succ budget => exact hread

/-- A number is read wherever it stands, and by the same digits. -/
theorem exists_value {n : Number} (h : n.isFinite = true) : ∃ d, Draft.ofText? n.render = some (.number d) ∧
    ∀ budget rest, Follows rest → value (budget + 1) (n.render.toList ++ rest) = some (.number d, rest) := by
  obtain ⟨d, hvalue⟩ : ∃ d, ∀ budget rest, Follows rest →
      value (budget + 1) (n.render.toList ++ rest) = some (.number d, rest) := by
    rcases render_cases h with hnumber | ⟨cs, hcs, hnumber⟩
    · obtain ⟨d, hd⟩ := hnumber false
      refine ⟨d, ?_⟩
      intro budget rest hrest
      exact value_of_number? hd hrest budget
    · obtain ⟨d, hd⟩ := hnumber true
      rw [hcs]
      refine ⟨d, ?_⟩
      intro budget rest hrest
      exact value_of_negative hd hrest budget
  exact ⟨d, ofText?_of_digits hvalue, hvalue⟩

/-- The draft of a number is the one its text is read as. -/
theorem draft_eq {n : Number} {d : Digits} (h : Draft.ofText? n.render = some (.number d)) :
    n.draft = .number d := by
  rw [draft, h, Option.getD_some]

/-- The text of a number is read as its draft wherever it stands. -/
theorem value_render (n : Number) {rest : List Char} (hrest : Follows rest) (budget : Nat) :
    value (budget + 1) (n.render.toList ++ rest) = some (n.draft, rest) := by
  cases hfinite : n.isFinite with
  | true =>
      obtain ⟨d, htext, hread⟩ := exists_value hfinite
      rw [draft_eq htext, hread budget rest hrest]
  | false =>
      rw [draft_of_not_finite hfinite, render_of_not_finite hfinite, value]
      rfl

/-! ## Legible numbers -/

/-- The text of a number reads back as the same number. -/
def Legible (n : Number) : Prop := Value.ofText? n.render = some (.number n)

/-- Whether a number is legible, by a look at what is read. -/
theorem legible_iff_any {n : Number} : n.Legible ↔
    (Value.ofText? n.render).any (fun | .number m => m == n | _ => false) = true := by
  unfold Legible
  cases Value.ofText? n.render with
  | none => simp
  | some v => cases v <;> simp

instance (n : Number) : Decidable n.Legible := decidable_of_iff _ legible_iff_any.symm

/-- The text of a number is read as the number that its digits stand for. -/
theorem ofText?_render_of_digits {n : Number} {d : Digits} (h : Draft.ofText? n.render = some (.number d)) :
    Value.ofText? n.render = d.toNumber?.map .number := by
  rw [Value.ofText?, h, Option.bind_some]
  rfl

/-- A legible number has a draft of digits that stand for it. -/
theorem Legible.exists_digits {n : Number} (h : n.Legible) :
    ∃ d, n.draft = .number d ∧ d.toNumber? = some n := by
  cases hfinite : n.isFinite with
  | true =>
      obtain ⟨d, htext, -⟩ := exists_value hfinite
      rw [Legible, ofText?_render_of_digits htext] at h
      obtain ⟨m, hm, heq⟩ := Option.map_eq_some_iff.1 h
      cases heq
      exact ⟨d, draft_eq htext, hm⟩
  | false =>
      rw [Legible, render_of_not_finite hfinite] at h
      cases h

/-- A number is legible if the digits of its text stand for it. -/
theorem legible_of_digits {n : Number} {d : Digits} (htext : Draft.ofText? n.render = some (.number d))
    (hnumber : d.toNumber? = some n) : n.Legible := by
  rw [Legible, ofText?_render_of_digits htext, hnumber]
  rfl

/-- The text of an integer of 64 bits reads back as the same integer. -/
theorem legible_integer {n : Int} (hlow : -(twoPow 63 : Int) ≤ n) (hhigh : n < (twoPow 64 : Int)) :
    (Number.integer n).Legible := by
  -- The digits are read back into a word, which does not overflow inside the range.
  have haccumulate {m : Nat} (hm : m ≤ Digits.wordMax) :
      Digits.accumulate 0 0 (Nat.toDigits 10 m) = (m, (Nat.toDigits 10 m).length) := by
    rw [Digits.accumulate_eq, Nat.ofDigitChars_toDigits, Nat.zero_add]
    all_goals simp [Nat.ofDigitChars_toDigits, hm]
  cases n with
  | ofNat m =>
      have hm : m ≤ Digits.wordMax := by
        have : m < twoPow 64 := Int.ofNat_lt.1 hhigh
        unfold Digits.wordMax
        omega
      have htext : (integer (Int.ofNat m)).render.toList = Nat.toDigits 10 m := String.toList_ofList
      refine legible_of_digits (d := ⟨false, Nat.toDigits 10 m, none, none⟩) (ofText?_of_digits ?_) ?_
      · intro budget rest hrest
        rw [htext]
        exact value_of_number? (number?_toDigits false m) hrest budget
      · simp [Digits.toNumber?, haccumulate hm]
  | negSucc m =>
      -- The lowest negative number has no positive counterpart, so the bound is one larger here.
      have hm : m + 1 ≤ twoPow 63 := by omega
      have hword : m + 1 ≤ Digits.wordMax := Nat.le_trans hm (by decide)
      have htext : (integer (Int.negSucc m)).render.toList = '-' :: Nat.toDigits 10 (m + 1) := by
        have hsign : (integer (Int.negSucc m)).render = "-" ++ String.ofList (Nat.toDigits 10 (m + 1)) := rfl
        simp [hsign]
      refine legible_of_digits (d := ⟨true, Nat.toDigits 10 (m + 1), none, none⟩) (ofText?_of_digits ?_) ?_
      · intro budget rest hrest
        rw [htext]
        exact value_of_negative (number?_toDigits true (m + 1)) hrest budget
      · simp [Digits.toNumber?, haccumulate hword, hm, Int.negSucc_eq]

end Number

end PayloadSchema.Json
