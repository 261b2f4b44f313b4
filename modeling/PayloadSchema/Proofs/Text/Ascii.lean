import Mathlib
import PayloadSchema.Text.Letter

/-!
# Letter case in ASCII

Names in source text are mostly made of letters, digits and underscores (`Text.IsWordChar`), and these are ASCII
(`Text.IsAscii`). There are so few of these characters that what holds of all of them is found by inspection
(`Text.IsAscii.inspect`).
-/

namespace PayloadSchema.Text

variable {c : Char}

/-! ## The first characters -/

/-- One of the first 128 characters. -/
def IsAscii (c : Char) : Prop := c.toNat < 128

instance (c : Char) : Decidable (IsAscii c) := inferInstanceAs (Decidable (_ < _))

namespace IsAscii

/-- What holds of the first characters, one by one, holds of all of them. -/
theorem inspect {P : Char → Prop} (hP : ∀ n < 128, P (Char.ofNat n)) (h : IsAscii c) : P c := by
  have hc := hP c.toNat h
  rwa [Char.ofNat_toNat] at hc

theorem isUpper_eq (h : IsAscii c) : isUpper c = c.isUpper :=
  inspect (P := fun c => isUpper c = c.isUpper) (by decide) h

theorem isLower_eq (h : IsAscii c) : isLower c = c.isLower :=
  inspect (P := fun c => isLower c = c.isLower) (by decide) h

theorem lower_eq (h : IsAscii c) : lower c = [c.toLower] :=
  inspect (P := fun c => lower c = [c.toLower]) (by decide) h

theorem upper_eq (h : IsAscii c) : upper c = [c.toUpper] :=
  inspect (P := fun c => upper c = [c.toUpper]) (by decide) h

end IsAscii

/-! ## Letters, digits and underscores -/

/-- A letter, a digit or an underscore. -/
def IsWordChar (c : Char) : Prop := c.isAlphanum = true ∨ c = '_'

instance (c : Char) : Decidable (IsWordChar c) := inferInstanceAs (Decidable (_ ∨ _))

namespace IsWordChar

/-- Letters, digits and underscores are in ASCII. -/
theorem isAscii (h : IsWordChar c) : IsAscii c := by
  rcases h with h | rfl
  · have hZ : 'Z'.val.toNat = 90 := rfl
    have hz : 'z'.val.toNat = 122 := rfl
    have h9 : '9'.val.toNat = 57 := rfl
    simp only [Char.isAlphanum, Char.isAlpha, Char.isUpper, Char.isLower, Char.isDigit, Bool.or_eq_true,
      Bool.and_eq_true, decide_eq_true_eq, ge_iff_le, UInt32.le_iff_toNat_le] at h
    rw [IsAscii, Char.toNat]
    omega
  · decide

/-- What holds of the word characters among the first characters holds of all. -/
theorem inspect {P : Char → Prop} (hP : ∀ n < 128, IsWordChar (Char.ofNat n) → P (Char.ofNat n))
    (h : IsWordChar c) : P c :=
  IsAscii.inspect (P := fun c => IsWordChar c → P c) hP h.isAscii h

theorem isUpper_eq (h : IsWordChar c) : isUpper c = c.isUpper := h.isAscii.isUpper_eq

theorem isLower_eq (h : IsWordChar c) : isLower c = c.isLower := h.isAscii.isLower_eq

theorem lower_eq (h : IsWordChar c) : lower c = [c.toLower] := h.isAscii.lower_eq

theorem upper_eq (h : IsWordChar c) : upper c = [c.toUpper] := h.isAscii.upper_eq

/-- It separates no words. -/
theorem not_separator (h : IsWordChar c) : ¬ (c = '-' ∨ c = ' ') :=
  inspect (P := fun c => ¬ (c = '-' ∨ c = ' ')) (by decide) h

end IsWordChar

/-! ## Letters and digits -/

/-- A capital is a letter. -/
theorem isAlphanum_of_isUpper (h : c.isUpper = true) : c.isAlphanum = true := by
  simp [Char.isAlphanum, Char.isAlpha, h]

/-- A letter or digit that is no capital is a small letter or a digit. -/
theorem isUpper_eq_false_iff (h : c.isAlphanum = true) :
    c.isUpper = false ↔ c.isLower = true ∨ c.isDigit = true :=
  IsWordChar.inspect (P := fun c => c.isAlphanum = true → (c.isUpper = false ↔ c.isLower = true ∨ c.isDigit = true))
    (by decide) (.inl h) h

/-- No letter or digit becomes an underscore. -/
theorem toLower_ne_underscore (h : c.isAlphanum = true) : c.toLower ≠ '_' :=
  IsWordChar.inspect (P := fun c => c.isAlphanum = true → c.toLower ≠ '_') (by decide) (.inl h) h

/-- A capital becomes a small letter. -/
theorem isLower_toLower (h : c.isUpper = true) : c.toLower.isLower = true := by
  rw [Char.isLower_toLower_eq_isAlpha, Char.isAlpha, h, Bool.true_or]

/-! ## Lower case -/

/-- A lower-case letter, a digit or an underscore. -/
def IsSmall (c : Char) : Prop := c.isLower = true ∨ c.isDigit = true ∨ c = '_'

instance (c : Char) : Decidable (IsSmall c) := inferInstanceAs (Decidable (_ ∨ _ ∨ _))

namespace IsSmall

/-- Small letters, digits and underscores may stand in a word. -/
theorem isWordChar (h : IsSmall c) : IsWordChar c := by
  rcases h with h | h | h
  · exact .inl (by simp [Char.isAlphanum, Char.isAlpha, h])
  · exact .inl (by simp [Char.isAlphanum, h])
  · exact .inr h

/-- What holds of the small ones among the first characters holds of all. -/
theorem inspect {P : Char → Prop} (hP : ∀ n < 128, IsSmall (Char.ofNat n) → P (Char.ofNat n)) (h : IsSmall c) :
    P c :=
  IsWordChar.inspect (P := fun c => IsSmall c → P c) (fun n hn _ => hP n hn) h.isWordChar h

/-- There are no capitals among small characters. -/
theorem isUpper_eq_false (h : IsSmall c) : isUpper c = false :=
  inspect (P := fun c => isUpper c = false) (by decide) h

/-- A small character comes back from its capital. -/
theorem toLower_toUpper (h : IsSmall c) : c.toUpper.toLower = c :=
  inspect (P := fun c => c.toUpper.toLower = c) (by decide) h

end IsSmall

end PayloadSchema.Text
