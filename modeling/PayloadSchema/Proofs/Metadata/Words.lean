import PayloadSchema.Descriptor.Basic
import PayloadSchema.Proofs.Metadata.Variants

/-!
# Words of field names

Most fields are called by words with single underscores between them (`IsRegular`). The rules that take the
underscores away mark the start of a word in another way, by a capital or by a hyphen. The snake form finds a
word again wherever it is marked so (`Marks`), since every word ends in a small letter or a digit, and from word
to word it finds the whole name.

* `Marks.snakeFrom_flatMap` — marked words are found again, as many as there are;
* `Casing.snakeCase_ofField` — a name is read back from its spelling, so two fields of a record that have no
  names of their own never become one property.
-/

namespace PayloadSchema

open Text (IsWordChar IsSmall)

/-! ## Names of words -/

/-- A lower-case letter or a digit. -/
def IsPlainChar (c : Char) : Prop := c.isLower = true ∨ c.isDigit = true

instance (c : Char) : Decidable (IsPlainChar c) := inferInstanceAs (Decidable (_ ∨ _))

/-- A lower-case letter and then one or more lower-case letters and digits. -/
def IsWord (word : List Char) : Prop :=
  ∃ first rest, word = first :: rest ∧ first.isLower = true ∧ rest ≠ [] ∧ ∀ c ∈ rest, IsPlainChar c

/-- Words with an underscore before each but the first. -/
def underscored (first : List Char) (words : List (List Char)) : List Char :=
  first ++ words.flatMap ('_' :: ·)

/-- A name of one or more words with single underscores between them. -/
def IsRegular (name : String) : Prop :=
  ∃ first words, IsWord first ∧ (∀ word ∈ words, IsWord word) ∧ name.toList = underscored first words

variable {c previous written : Char} {word rest : List Char} {words : List (List Char)}

namespace IsPlainChar

theorem isSmall (h : IsPlainChar c) : IsSmall c := by
  rcases h with h | h
  · exact .inl h
  · exact .inr (.inl h)

theorem ne_underscore (h : IsPlainChar c) : c ≠ '_' :=
  h.isSmall.inspect (P := fun c => IsPlainChar c → c ≠ '_') (by decide) h

/-- A capital behind it starts a word. -/
theorem startsWord (h : IsPlainChar previous) (rest : List Char) : startsWord (some previous) rest = true := by
  have hword : IsWordChar previous := h.isSmall.isWordChar
  unfold PayloadSchema.startsWord
  dsimp only
  rw [hword.isLower_eq]
  rcases h with h | h
  · rw [h, Bool.true_or, Bool.true_or]
  · rw [h, Bool.or_true, Bool.true_or]

end IsPlainChar

/-- The letters and digits of a word are plain. -/
theorem IsWord.forall_isPlainChar (h : IsWord word) : ∀ c ∈ word, IsPlainChar c := by
  rcases h with ⟨first, rest, rfl, hfirst, -, hrest⟩
  intro c hc
  rcases List.mem_cons.1 hc with rfl | hc
  · exact .inl hfirst
  · exact hrest c hc

theorem IsWord.ne_nil (h : IsWord word) : word ≠ [] := by
  rcases h with ⟨first, rest, rfl, -⟩
  exact List.cons_ne_nil first rest

/-! ## Words found again -/

/-- Small letters and digits stand in the snake form as they are, and one of them is the last so far. -/
theorem snakeFrom_plain (hword : ∀ c ∈ word, IsPlainChar c) (hne : word ≠ []) (previous written : Option Char)
    (rest : List Char) : ∃ last, IsPlainChar last ∧
      snakeFrom previous written (word ++ rest) = word ++ snakeFrom (some last) (some last) rest := by
  induction word generalizing previous written with
  | nil => exact absurd rfl hne
  | cons c word ih =>
      rcases List.forall_mem_cons.1 hword with ⟨hc, hword⟩
      -- neither a separator nor a capital, so it is kept
      have hstep : snakeFrom previous written (c :: (word ++ rest)) =
          c :: snakeFrom (some c) (some c) (word ++ rest) := by
        rw [snakeFrom, if_neg hc.isSmall.isWordChar.not_separator, hc.isSmall.isUpper_eq_false,
          if_neg Bool.false_ne_true]
      rw [List.cons_append, hstep]
      by_cases hlast : word = []
      · subst hlast
        exact ⟨c, hc, rfl⟩
      · rcases ih hword hlast (some c) (some c) with ⟨last, hplain, hrest⟩
        exact ⟨last, hplain, by rw [hrest, List.cons_append]⟩

/-- A word that is marked so, behind a small letter or a digit, stands in the snake form after an underscore. -/
def Marks (mark : List Char → List Char) : Prop :=
  ∀ word previous written rest, IsWord word → IsPlainChar previous → written ≠ '_' → ∃ last, IsPlainChar last ∧
    snakeFrom (some previous) (some written) (mark word ++ rest) =
      '_' :: word ++ snakeFrom (some last) (some last) rest

/-- A hyphen marks a word. -/
theorem marks_hyphen : Marks ('-' :: ·) := by
  intro word previous written rest hword _ hwritten
  have hhyphen : snakeFrom (some previous) (some written) ('-' :: (word ++ rest)) =
      '_' :: snakeFrom (some '-') (some '_') (word ++ rest) := by
    rw [snakeFrom, if_pos (.inl rfl), if_neg (by simpa using hwritten)]
  rcases snakeFrom_plain hword.forall_isPlainChar hword.ne_nil (some '-') (some '_') rest with ⟨last, hlast, hrest⟩
  exact ⟨last, hlast, by rw [List.cons_append, hhyphen, hrest, List.cons_append]⟩

def capitalWord (word : List Char) : List Char := word.modifyHead Char.toUpper

/-- A capital marks a word. -/
theorem marks_capital : Marks capitalWord := by
  intro word previous written rest hword hprevious hwritten
  rcases hword with ⟨first, tail, rfl, hfirst, htail, hplain⟩
  have hupper : first.toUpper.isUpper = true := by
    rw [Char.isUpper_toUpper_eq_isAlpha, Char.isAlpha, hfirst, Bool.or_true]
  have hback : first.toUpper.toLower = first := IsSmall.toLower_toUpper (.inl hfirst)
  -- the capital follows a small letter or a digit, whatever comes after it
  have hcapital := snakeFrom_cons (Text.isAlphanum_of_isUpper hupper) (some previous) hwritten (tail ++ rest)
  rw [hupper, hprevious.startsWord, Bool.and_self, if_pos rfl, hback] at hcapital
  rcases snakeFrom_plain hplain htail (some first.toUpper) (some first) rest with ⟨last, hlast, hrest⟩
  refine ⟨last, hlast, ?_⟩
  rw [capitalWord, List.modifyHead_cons, List.cons_append, hcapital, hrest]
  rfl

/-- **Marked words are found again**, one after the other. -/
theorem Marks.snakeFrom_flatMap {mark : List Char → List Char} (h : Marks mark)
    (hwords : ∀ word ∈ words, IsWord word) (hprevious : IsPlainChar previous) (hwritten : written ≠ '_') :
    snakeFrom (some previous) (some written) (words.flatMap mark) = words.flatMap ('_' :: ·) := by
  induction words generalizing previous written with
  | nil => rfl
  | cons word words ih =>
      rcases List.forall_mem_cons.1 hwords with ⟨hword, hwords⟩
      rcases h word previous written (words.flatMap mark) hword hprevious hwritten with ⟨last, hlast, hfound⟩
      rw [List.flatMap_cons, hfound, ih hwords hlast hlast.ne_underscore, List.flatMap_cons]

namespace Casing

/-! ## Words marked by the rules -/

/-- Plain characters are joined as they are. -/
theorem joinWords_plain (hword : ∀ c ∈ word, IsPlainChar c) (rest : List Char) :
    joinWords false (word ++ rest) = word ++ joinWords false rest := by
  induction word with
  | nil => rfl
  | cons c word ih =>
      rcases List.forall_mem_cons.1 hword with ⟨hc, hword⟩
      rw [List.cons_append, joinWords, if_neg hc.ne_underscore, if_neg Bool.false_ne_true, ih hword,
        List.cons_append]

/-- A word that is to have a capital gets it. -/
theorem joinWords_word (hword : IsWord word) (rest : List Char) :
    joinWords true (word ++ rest) = capitalWord word ++ joinWords false rest := by
  rcases hword with ⟨first, tail, rfl, hfirst, -, htail⟩
  have hplain : IsPlainChar first := .inl hfirst
  rw [List.cons_append, joinWords, if_neg hplain.ne_underscore, if_pos rfl, hplain.isSmall.isWordChar.upper_eq,
    joinWords_plain htail]
  rfl

/-- Words behind underscores are joined with capitals. -/
theorem joinWords_words (hwords : ∀ word ∈ words, IsWord word) :
    joinWords false (words.flatMap ('_' :: ·)) = words.flatMap capitalWord := by
  induction words with
  | nil => rfl
  | cons word words ih =>
      rcases List.forall_mem_cons.1 hwords with ⟨hword, hwords⟩
      rw [List.flatMap_cons, List.cons_append, joinWords, if_pos rfl, joinWords_word hword, ih hwords,
        List.flatMap_cons]

theorem hyphenate_plain (hword : ∀ c ∈ word, IsPlainChar c) : hyphenate word = word := by
  unfold hyphenate
  rw [List.map_congr_left fun c hc => if_neg (hword c hc).ne_underscore]
  exact List.map_id word

/-- Underscores before words become hyphens. -/
theorem hyphenate_words (hwords : ∀ word ∈ words, IsWord word) :
    hyphenate (words.flatMap ('_' :: ·)) = words.flatMap ('-' :: ·) := by
  induction words with
  | nil => rfl
  | cons word words ih =>
      rcases List.forall_mem_cons.1 hwords with ⟨hword, hwords⟩
      have hone := hyphenate_plain hword.forall_isPlainChar
      unfold hyphenate at hone ih ⊢
      rw [List.flatMap_cons, List.map_append, ih hwords, List.map_cons, hone, List.flatMap_cons]
      rfl

/-- A name of words is its own snake form. -/
theorem snakeChars_underscored {first : List Char} (hfirst : IsWord first) (hwords : ∀ word ∈ words, IsWord word) :
    snakeChars (underscored first words) = underscored first words := by
  apply snakeFrom_of_isSmall
  intro c hc
  rcases List.mem_append.1 hc with hc | hc
  · exact (hfirst.forall_isPlainChar c hc).isSmall
  · rcases List.mem_flatMap.1 hc with ⟨word, hword, hc⟩
    rcases List.mem_cons.1 hc with rfl | hc
    · exact .inr (.inr rfl)
    · exact ((hwords word hword).forall_isPlainChar c hc).isSmall

/-! ## Names read back -/

/-- Words of which all but the first are marked. -/
theorem snakeChars_marked {mark : List Char → List Char} (h : Marks mark) {first : List Char}
    (hfirst : IsWord first) (hwords : ∀ word ∈ words, IsWord word) :
    snakeChars (first ++ words.flatMap mark) = underscored first words := by
  rcases snakeFrom_plain hfirst.forall_isPlainChar hfirst.ne_nil none none (words.flatMap mark) with
    ⟨last, hlast, hrest⟩
  rw [snakeChars, hrest, h.snakeFrom_flatMap hwords hlast hlast.ne_underscore, underscored]

/-- Words that all have a capital. -/
theorem snakeChars_capitals {first : List Char} (hfirst : IsWord first) (hwords : ∀ word ∈ words, IsWord word) :
    snakeChars (capitalWord first ++ words.flatMap capitalWord) = underscored first words := by
  rcases hfirst with ⟨c, tail, rfl, hc, htail, hplain⟩
  have hupper : c.toUpper.isUpper = true := by
    rw [Char.isUpper_toUpper_eq_isAlpha, Char.isAlpha, hc, Bool.or_true]
  have hback : c.toUpper.toLower = c := IsSmall.toLower_toUpper (.inl hc)
  rcases snakeFrom_plain hplain htail (some c.toUpper) (some c) (words.flatMap capitalWord) with ⟨last, hlast, hrest⟩
  rw [capitalWord, List.modifyHead_cons, List.cons_append, snakeChars_cons hupper, hback, hrest,
    marks_capital.snakeFrom_flatMap hwords hlast hlast.ne_underscore, underscored, List.cons_append]

/-- Words in camel case are found again. -/
theorem snakeChars_camel {first : List Char} (hfirst : IsWord first) (hwords : ∀ word ∈ words, IsWord word) :
    snakeChars (camel.fieldChars (underscored first words)) = underscored first words := by
  have hstart : (underscored first words).dropWhile (· = '_') = underscored first words := by
    rcases hfirst with ⟨c, tail, rfl, hc, -⟩
    have hplain : IsPlainChar c := .inl hc
    exact List.dropWhile_cons_of_neg (by simpa using hplain.ne_underscore)
  have hcamel : camel.fieldChars (underscored first words) = first ++ words.flatMap capitalWord := by
    unfold fieldChars
    dsimp only
    rw [snakeChars_underscored hfirst hwords, hstart, underscored, joinWords_plain hfirst.forall_isPlainChar,
      joinWords_words hwords]
  rw [hcamel, snakeChars_marked marks_capital hfirst hwords]

/-- Words in Pascal case are found again. -/
theorem snakeChars_pascal {first : List Char} (hfirst : IsWord first) (hwords : ∀ word ∈ words, IsWord word) :
    snakeChars (pascal.fieldChars (underscored first words)) = underscored first words := by
  have hpascal : pascal.fieldChars (underscored first words) = capitalWord first ++ words.flatMap capitalWord := by
    unfold fieldChars
    dsimp only
    rw [snakeChars_underscored hfirst hwords, underscored, joinWords_word hfirst, joinWords_words hwords]
  rw [hpascal, snakeChars_capitals hfirst hwords]

/-- Words between hyphens are found again. -/
theorem snakeChars_kebab {first : List Char} (hfirst : IsWord first) (hwords : ∀ word ∈ words, IsWord word) :
    snakeChars (kebab.fieldChars (underscored first words)) = underscored first words := by
  have hkebab : kebab.fieldChars (underscored first words) = first ++ words.flatMap ('-' :: ·) := by
    have hone := hyphenate_plain hfirst.forall_isPlainChar
    have hmore := hyphenate_words hwords
    unfold fieldChars
    dsimp only
    unfold hyphenate at hone hmore ⊢
    rw [snakeChars_underscored hfirst hwords, underscored, List.map_append, hone, hmore]
  rw [hkebab, snakeChars_marked marks_hyphen hfirst hwords]

/-- **Names of words are read back.** The snake form of a field's name in camel, Pascal or kebab case is the name
itself if it is made of words. So under these rules two such fields of a record become two properties, unless an
annotation gives one of them another name. -/
theorem snakeCase_ofField {τ : Type} (rule : Casing) (hrule : rule = .camel ∨ rule = .pascal ∨ rule = .kebab) :
    (∀ name, IsRegular name → snakeCase (rule.ofField name) = name) ∧
      ∀ f f' : Field τ, f.metadata.rename = none → f'.metadata.rename = none → IsRegular f.name →
        IsRegular f'.name → f.name ≠ f'.name →
          f.metadata.wireName f.name (some rule) ≠ f'.metadata.wireName f'.name (some rule) := by
  -- The words of a regular name are marked in each spelling, by hyphen or by capital.
  have hback : ∀ name, IsRegular name → snakeCase (rule.ofField name) = name := by
    intro name hname
    rcases hname with ⟨first, words, hfirst, hwords, hname⟩
    have hchars : snakeChars (rule.fieldChars name.toList) = name.toList := by
      rw [hname]
      rcases hrule with rfl | rfl | rfl
      · exact snakeChars_camel hfirst hwords
      · exact snakeChars_pascal hfirst hwords
      · exact snakeChars_kebab hfirst hwords
    rw [snakeCase, ofField, String.toList_ofList, hchars, String.ofList_toList]
  refine ⟨hback, ?_⟩
  intro f f' hrename hrename' hregular hregular' hne hsame
  apply hne
  -- Two fields with one wire name have one name, read back from the spelling.
  have hspelled : rule.ofField f.name = rule.ofField f'.name := by
    simpa only [FieldMetadata.wireName, hrename, hrename'] using hsame
  rw [← hback f.name hregular, hspelled, hback f'.name hregular']

/-- Words that end in digits, under a rule that leaves nothing between them. -/
theorem snakeCase_ofField_address : IsRegular "ip4_address2_v6" ∧ pascal.ofField "ip4_address2_v6" = "Ip4Address2V6" ∧
    snakeCase (pascal.ofField "ip4_address2_v6") = "ip4_address2_v6" := by
  have hplain : ∀ cs : List Char, cs.all (fun c => decide (IsPlainChar c)) = true → ∀ c ∈ cs, IsPlainChar c :=
    fun cs hcs c hc => of_decide_eq_true (List.all_eq_true.1 hcs c hc)
  have hword : ∀ word ∈ ["ip4".toList, "address2".toList, "v6".toList], IsWord word := by
    intro word hword
    simp only [List.mem_cons, List.not_mem_nil, or_false] at hword
    rcases hword with rfl | rfl | rfl
    · exact ⟨'i', "p4".toList, rfl, rfl, by decide, hplain _ (by decide)⟩
    · exact ⟨'a', "ddress2".toList, rfl, rfl, by decide, hplain _ (by decide)⟩
    · exact ⟨'v', "6".toList, rfl, rfl, by decide, hplain _ (by decide)⟩
  have hregular : IsRegular "ip4_address2_v6" :=
    ⟨"ip4".toList, ["address2".toList, "v6".toList], hword _ (by simp), fun w hw => hword w (.tail _ hw), by decide⟩
  exact ⟨hregular, by decide, (snakeCase_ofField (τ := Unit) pascal (.inr (.inl rfl))).1 _ hregular⟩

end Casing

end PayloadSchema
