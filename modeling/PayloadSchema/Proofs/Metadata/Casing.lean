import PayloadSchema.Metadata.Casing
import PayloadSchema.Proofs.Text.Ascii

/-!
# Fields on the wire

A serializer takes a field's name to be in lower case with underscores between its words, and each rule changes
these two things only (`Casing.wireField`). Here names are spelled by way of their snake form, with the words
taken apart and put together again. A name in lower case is its own snake form, wherever its underscores stand,
so that both ways lead to the same spelling.

* `snakeFrom_of_forall`, `snakeFrom_of_isSmall` — a name in lower case is its own snake form;
* `Casing.ofField_eq_wireField` — it is spelled as on the wire, under every rule.
-/

namespace PayloadSchema

open Text (IsSmall isUpper)

/-- A name without capitals, hyphens and spaces is its own snake form. -/
theorem snakeFrom_of_forall {name : List Char} (hcapital : ∀ c ∈ name, isUpper c = false)
    (hmark : ∀ c ∈ name, ¬ (c = '-' ∨ c = ' ')) (previous written : Option Char) :
    snakeFrom previous written name = name := by
  induction name generalizing previous written with
  | nil => rfl
  | cons c name ih =>
      rcases List.forall_mem_cons.1 hcapital with ⟨hc, hcapital⟩
      rcases List.forall_mem_cons.1 hmark with ⟨hc', hmark⟩
      rw [snakeFrom, if_neg hc', hc, if_neg Bool.false_ne_true, ih hcapital hmark]

/-- A name in lower case is its own snake form. -/
theorem snakeFrom_of_isSmall {name : List Char} (h : ∀ c ∈ name, IsSmall c) (previous written : Option Char) :
    snakeFrom previous written name = name :=
  snakeFrom_of_forall (fun c hc => (h c hc).isUpper_eq_false) (fun c hc => (h c hc).isWordChar.not_separator)
    previous written

namespace Casing

/-! ## The rules of the wire -/

def hyphen (c : Char) : Char := if c = '_' then '-' else c

/-- The characters of a name but the underscores, those after an underscore as capitals; before the first one
stands `before`, if anything. -/
def capitalizedAfter (before : Option Char) (name : List Char) : List Char :=
  ((before :: name.map some).zip name).filterMap fun (before, c) =>
    if c = '_' then none else some (if before = none ∨ before = some '_' then c.toUpper else c)

/-- The characters of a name but the underscores; the first one and those after an underscore are capitals. -/
def capitalized (name : List Char) : List Char := capitalizedAfter none name

/-- A field's name on the wire, as characters. -/
def wireFieldChars (rule : Casing) (name : List Char) : List Char :=
  match rule with
  | .lower | .snake => name
  | .upper | .screamingSnake => name.map Char.toUpper
  | .kebab => name.map hyphen
  | .screamingKebab => (name.map hyphen).map Char.toUpper
  | .pascal => capitalized name
  | .camel => (capitalized name).modifyHead Char.toLower

def wireField (rule : Casing) (name : String) : String := String.ofList (rule.wireFieldChars name.toList)

/-! ## Words run together -/

variable {name : List Char}

/-- What is run together are the characters but the underscores, with capitals where words start. -/
theorem joinWords_eq (h : ∀ c ∈ name, IsSmall c) (before : Option Char) :
    joinWords (before = none ∨ before = some '_') name = capitalizedAfter before name := by
  -- whether a character is to be a capital is known from the character before it
  induction name generalizing before with
  | nil => rfl
  | cons c name ih =>
      obtain ⟨hc, hname⟩ := List.forall_mem_cons.1 h
      rw [joinWords, hc.isWordChar.upper_eq, capitalizedAfter, List.map_cons, List.zip_cons_cons, List.filterMap_cons,
        ← capitalizedAfter, ← ih hname]
      by_cases hunderscore : c = '_'
      · simp [hunderscore]
      · by_cases hstart : before = none ∨ before = some '_'
        · simp [hunderscore, hstart]
        · simp [hunderscore, hstart]

theorem joinWords_capital (h : ∀ c ∈ name, IsSmall c) : joinWords true name = capitalized name :=
  joinWords_eq h none

/-- If the first word is not to have a capital, only the first character is another. -/
theorem joinWords_dropWhile (h : ∀ c ∈ name, IsSmall c) :
    joinWords false (name.dropWhile (· = '_')) = (capitalized name).modifyHead Char.toLower := by
  rw [← joinWords_capital h]
  induction name with
  | nil => rfl
  | cons c name ih =>
      obtain ⟨hc, hname⟩ := List.forall_mem_cons.1 h
      by_cases hunderscore : c = '_'
      · rw [joinWords, if_pos hunderscore, List.dropWhile_cons_of_pos (by simpa using hunderscore)]
        exact ih hname
      · rw [List.dropWhile_cons_of_neg (by simpa using hunderscore), joinWords, joinWords, if_neg hunderscore,
          if_neg hunderscore, if_neg Bool.false_ne_true, if_pos rfl, hc.isWordChar.upper_eq, List.singleton_append,
          List.modifyHead_cons, hc.toLower_toUpper]

/-! ## Fields -/

/-- **Fields are spelled as on the wire.** A field's name of lower-case letters, digits and underscores,
wherever these stand, is spelled as a serializer spells it, under every rule. -/
theorem ofField_eq_wireField (rule : Casing) (name : String)
    (h : ∀ c ∈ name.toList, c.isLower = true ∨ c.isDigit = true ∨ c = '_') :
    rule.ofField name = rule.wireField name := by
  -- A name in small letters is left alone by the first pass, so only the second one spells.
  have hsnake : snakeChars name.toList = name.toList := snakeFrom_of_isSmall h none none
  refine congrArg String.ofList ?_
  unfold fieldChars
  rw [hsnake]
  cases rule with
  | lower => rfl
  | upper => rfl
  | pascal => exact joinWords_capital h
  | camel => exact joinWords_dropWhile h
  | snake => rfl
  | screamingSnake => rfl
  | kebab => rfl
  | screamingKebab => rfl

/-- A name with underscores at both ends and two in the middle. -/
theorem ofField_eq_wireField_underscores :
    (∀ c ∈ "_user__id2_".toList, c.isLower = true ∨ c.isDigit = true ∨ c = '_') ∧
      camel.ofField "_user__id2_" = camel.wireField "_user__id2_" ∧ camel.ofField "_user__id2_" = "userId2" := by
  have h : ∀ c ∈ "_user__id2_".toList, c.isLower = true ∨ c.isDigit = true ∨ c = '_' := by
    have hall : "_user__id2_".toList.all (fun c => c.isLower || (c.isDigit || c = '_')) = true := by decide
    simpa only [List.all_eq_true, Bool.or_eq_true, decide_eq_true_eq] using hall
  exact ⟨h, ofField_eq_wireField camel "_user__id2_" h, by decide⟩

end Casing

end PayloadSchema
