import PayloadSchema.Proofs.Metadata.Casing

/-!
# Variants on the wire

A serializer takes a variant's name to be in Pascal form, and each capital in it to start a word
(`Casing.wireVariant`). Here the rules that work on words go by way of the snake form, in which a run of capitals
is one word, with the last one for the next word if a lower-case letter follows. These are the same words unless
a capital follows a capital that does not start a word in this way (`HasAcronym`), and then no such rule spells
the name as on the wire: from every spelling the words can be read back.

* `snakeChars_eq_spread_iff` — the snake form has the words of the wire if there is no acronym;
* `Casing.ofVariant_eq_wireVariant_iff` — when a variant is spelled as on the wire;
* `Casing.not_ofVariant_eq_wireVariant` — an acronym is not.
-/

namespace PayloadSchema

open Text (IsWordChar IsSmall)

/-! ## Names -/

/-- A capital and then letters and digits. -/
def IsVariantName (name : List Char) : Prop :=
  ∃ first rest, name = first :: rest ∧ first.isUpper = true ∧ ∀ c ∈ rest, c.isAlphanum = true

/-- Somewhere a capital follows a capital, and no lower-case letter follows it. -/
def HasAcronym (name : List Char) : Prop :=
  ∃ before a b after, name = before ++ a :: b :: after ∧ a.isUpper = true ∧ b.isUpper = true ∧
    ∀ c ∈ after.head?, c.isLower = false

/-- A letter or a digit behind the first one, with an underscore before a capital, in lower case. -/
def spaced (c : Char) : List Char := (if c.isUpper then ['_'] else []) ++ [c.toLower]

/-- A name with an underscore before each capital but the first, in lower case. -/
def spread : List Char → List Char
  | [] => []
  | first :: rest => first.toLower :: rest.flatMap spaced

namespace Casing

/-- A variant's name on the wire, as characters. -/
def wireVariantChars (rule : Casing) (name : List Char) : List Char :=
  match rule with
  | .lower => name.map Char.toLower
  | .upper => name.map Char.toUpper
  | .pascal => name
  | .camel => name.modifyHead Char.toLower
  | .snake => spread name
  | .screamingSnake => (spread name).map Char.toUpper
  | .kebab => (spread name).map hyphen
  | .screamingKebab => ((spread name).map hyphen).map Char.toUpper

/-- A variant's name on the wire. -/
def wireVariant (rule : Casing) (name : String) : String := String.ofList (rule.wireVariantChars name.toList)

end Casing

/-! ## Acronyms -/

theorem not_hasAcronym_singleton (c : Char) : ¬ HasAcronym [c] := by
  rintro ⟨before, a, b, after, h, -⟩
  have hlength := congrArg List.length h
  simp at hlength
  omega

/-- An acronym is at the start of a name or further on. -/
theorem hasAcronym_cons_cons_iff {a b : Char} {name : List Char} : HasAcronym (a :: b :: name) ↔
    (a.isUpper = true ∧ b.isUpper = true ∧ ∀ c ∈ name.head?, c.isLower = false) ∨ HasAcronym (b :: name) := by
  constructor
  · rintro ⟨before, a', b', after, h, hacronym⟩
    cases before with
    | nil =>
        obtain ⟨rfl, rfl, rfl⟩ : a = a' ∧ b = b' ∧ name = after := by simpa using h
        exact .inl hacronym
    | cons first before => exact .inr ⟨before, a', b', after, (List.cons.inj h).2, hacronym⟩
  · rintro (hacronym | ⟨before, a', b', after, h, hacronym⟩)
    · exact ⟨[], a, b, name, rfl, hacronym⟩
    · exact ⟨a :: before, a', b', after, by rw [h, List.cons_append], hacronym⟩

variable {c previous written : Char} {name rest : List Char}

/-- Within a name, a capital starts no word if it follows a capital and no lower-case letter follows. -/
theorem startsWord_eq_false_iff (hprevious : previous.isAlphanum = true)
    (h : ∀ c ∈ rest, c.isAlphanum = true) :
    startsWord (some previous) rest = false ↔
      previous.isUpper = true ∧ ∀ c ∈ rest.head?, c.isLower = false := by
  have hprevious' : IsWordChar previous := .inl hprevious
  have hsmall := Text.isUpper_eq_false_iff hprevious
  have hhead : rest.head?.any Text.isLower = false ↔ ∀ c ∈ rest.head?, c.isLower = false := by
    cases rest with
    | nil => simp
    | cons c rest =>
        have hc : IsWordChar c := .inl (h c List.mem_cons_self)
        simp [hc.isLower_eq]
  unfold startsWord
  dsimp only
  rw [hprevious'.isUpper_eq, hprevious'.isLower_eq]
  -- After a small letter or a digit a capital always starts a word; after a capital the next character
  -- decides.
  cases hcapital : previous.isUpper with
  | false =>
      rcases hsmall.1 hcapital with hlower | hdigit
      · simp [hlower]
      · simp [hdigit]
  | true =>
      have hnot : ¬ (previous.isLower = true ∨ previous.isDigit = true) := by simp [← hsmall, hcapital]
      obtain ⟨hlower, hdigit⟩ := not_or.1 hnot
      simp [hlower, hdigit, hhead]

/-! ## Snake forms -/

/-- One letter or digit of the snake form, within a name. -/
theorem snakeFrom_cons (hc : c.isAlphanum = true) (previous : Option Char) (hwritten : written ≠ '_')
    (rest : List Char) :
    snakeFrom previous (some written) (c :: rest) =
      (if c.isUpper && startsWord previous rest then ['_'] else []) ++
        c.toLower :: snakeFrom (some c) (some c.toLower) rest := by
  have hword : IsWordChar c := .inl hc
  rw [snakeFrom, if_neg hword.not_separator, hword.isUpper_eq]
  cases hcapital : c.isUpper with
  | false => simp [Char.toLower_eq_of_not_isUpper (Bool.eq_false_iff.1 hcapital)]
  | true => simp [hword.lower_eq, hwritten]

/-- The first letter of the snake form of a variant's name. -/
theorem snakeChars_cons {first : Char} (hfirst : first.isUpper = true) (rest : List Char) :
    snakeChars (first :: rest) = first.toLower :: snakeFrom (some first) (some first.toLower) rest := by
  have hword : IsWordChar first := .inl (Text.isAlphanum_of_isUpper hfirst)
  rw [snakeChars, snakeFrom, if_neg hword.not_separator, hword.isUpper_eq, if_pos hfirst]
  simp [startsWord, hword.lower_eq]

/-- Behind a letter or a digit, the snake form has an underscore before each capital if no acronym follows. -/
theorem snakeFrom_eq_iff (hprevious : previous.isAlphanum = true) (h : ∀ c ∈ rest, c.isAlphanum = true)
    (hwritten : written ≠ '_') :
    snakeFrom (some previous) (some written) rest = rest.flatMap spaced ↔ ¬ HasAcronym (previous :: rest) := by
  induction rest generalizing previous written with
  | nil => simp [snakeFrom, not_hasAcronym_singleton]
  | cons c rest ih =>
      obtain ⟨hc, hrest⟩ := List.forall_mem_cons.1 h
      have hunderscore := Text.toLower_ne_underscore hc
      have ih := ih hc hrest hunderscore
      rw [snakeFrom_cons hc _ hwritten, List.flatMap_cons, spaced, hasAcronym_cons_cons_iff,
        ← and_left_comm, ← startsWord_eq_false_iff hprevious hrest]
      cases hcapital : c.isUpper with
      | false => simpa using ih
      | true =>
          -- here the two forms part if no word starts
          cases hstart : startsWord (some previous) rest with
          | false => simp [hunderscore]
          | true => simpa using ih

/-- The snake form of a variant's name has an underscore before each capital but the first if and only if there
is no acronym in it. -/
theorem snakeChars_eq_spread_iff (h : IsVariantName name) : snakeChars name = spread name ↔ ¬ HasAcronym name := by
  obtain ⟨first, rest, rfl, hfirst, hrest⟩ := h
  have halphanum := Text.isAlphanum_of_isUpper hfirst
  rw [snakeChars_cons hfirst, spread, List.cons_inj_right,
    snakeFrom_eq_iff halphanum hrest (Text.toLower_ne_underscore halphanum)]

/-! ## Words that can be told apart -/

/-- Small letters and digits, with single underscores that stand before letters. -/
inductive IsSpaced : List Char → Prop where
  | nil : IsSpaced []
  | plain {c : Char} {name : List Char} (hc : c.isLower = true ∨ c.isDigit = true) (h : IsSpaced name) :
    IsSpaced (c :: name)
  | word {c : Char} {name : List Char} (hc : c.isLower = true) (h : IsSpaced name) : IsSpaced ('_' :: c :: name)

/-- All characters of a spaced name are small. -/
theorem IsSpaced.isSmall (h : IsSpaced name) : ∀ c ∈ name, IsSmall c := by
  induction h with
  | nil => exact List.forall_mem_nil _
  | plain hc h ih => exact List.forall_mem_cons.2 ⟨or_assoc.1 (.inl hc), ih⟩
  | word hc h ih => exact List.forall_mem_cons.2 ⟨.inr (.inr rfl), List.forall_mem_cons.2 ⟨.inl hc, ih⟩⟩

/-- A capital that becomes small may have an underscore before it. -/
theorem IsSpaced.cons (hc : c.isAlphanum = true) (starts : Bool) (h : IsSpaced name) :
    IsSpaced ((if c.isUpper && starts then ['_'] else []) ++ c.toLower :: name) := by
  cases hcapital : c.isUpper with
  | false =>
      rw [Bool.false_and, if_neg Bool.false_ne_true, List.nil_append,
        Char.toLower_eq_of_not_isUpper (Bool.eq_false_iff.1 hcapital)]
      exact .plain ((Text.isUpper_eq_false_iff hc).1 hcapital) h
  | true =>
      have hlower := Text.isLower_toLower hcapital
      cases starts with
      | false => exact .plain (.inl hlower) h
      | true => exact .word hlower h

/-- Letters and digits are put in snake case as a spaced name. -/
theorem isSpaced_snakeFrom (h : ∀ c ∈ rest, c.isAlphanum = true) (previous : Option Char)
    (hwritten : written ≠ '_') : IsSpaced (snakeFrom previous (some written) rest) := by
  induction rest generalizing previous written with
  | nil => exact .nil
  | cons c rest ih =>
      obtain ⟨hc, hrest⟩ := List.forall_mem_cons.1 h
      rw [snakeFrom_cons hc previous hwritten]
      exact .cons hc _ (ih hrest _ (Text.toLower_ne_underscore hc))

/-- Letters and digits of which each capital is spaced are a spaced name. -/
theorem isSpaced_flatMap_spaced (h : ∀ c ∈ rest, c.isAlphanum = true) : IsSpaced (rest.flatMap spaced) := by
  induction rest with
  | nil => exact .nil
  | cons c rest ih =>
      obtain ⟨hc, hrest⟩ := List.forall_mem_cons.1 h
      have hspaced := IsSpaced.cons hc true (ih hrest)
      rwa [Bool.and_true, List.append_cons] at hspaced

/-- In both ways to put it in snake case, the name of a variant is a spaced one. -/
theorem IsVariantName.isSpaced (h : IsVariantName name) : IsSpaced (snakeChars name) ∧ IsSpaced (spread name) := by
  obtain ⟨first, rest, rfl, hfirst, hrest⟩ := h
  have hlower := Text.isLower_toLower hfirst
  have hunderscore := Text.toLower_ne_underscore (Text.isAlphanum_of_isUpper hfirst)
  rw [snakeChars_cons hfirst, spread]
  constructor
  · exact .plain (.inl hlower) (isSpaced_snakeFrom hrest _ hunderscore)
  · exact .plain (.inl hlower) (isSpaced_flatMap_spaced hrest)

namespace Casing

/-- Words that can be read back are spelled alike only if they are the same. -/
theorem spell_eq_iff (spell read : List Char → List Char) {a b : List Char}
    (hread : ∀ name, IsSpaced name → read (spell name) = name) (ha : IsSpaced a) (hb : IsSpaced b) :
    spell a = spell b ↔ a = b := by
  refine ⟨?_, congrArg spell⟩
  intro h
  rw [← hread a ha, ← hread b hb, h]

/-- Characters can be read back one by one. -/
theorem map_map_of_isSpaced (f g : Char → Char)
    (h : ∀ n < 128, IsSmall (Char.ofNat n) → g (f (Char.ofNat n)) = Char.ofNat n) (hname : IsSpaced name) :
    (name.map f).map g = name := by
  have hback : ∀ c ∈ name, (g ∘ f) c = id c := by
    intro c hc
    exact IsSmall.inspect (P := fun c => g (f c) = c) h (hname.isSmall c hc)
  rw [List.map_map]
  exact (List.map_congr_left hback).trans (List.map_id name)

/-- Words that were run together are told apart by their capitals. -/
theorem flatMap_spaced_joinWords (h : IsSpaced name) : (joinWords false name).flatMap spaced = name := by
  -- By induction on how the name is spaced: a word begins at each underscore and nowhere else.
  induction h with
  | nil => rfl
  | @plain c name hc h ih =>
      have hsmall : IsSmall c := or_assoc.1 (.inl hc)
      have hplain : c ≠ '_' ∧ spaced c = [c] :=
        hsmall.inspect (P := fun c => c.isLower = true ∨ c.isDigit = true → c ≠ '_' ∧ spaced c = [c]) (by decide) hc
      rw [joinWords, if_neg hplain.1, if_neg Bool.false_ne_true, List.flatMap_cons, hplain.2, ih,
        List.singleton_append]
  | @word c name hc h ih =>
      have hsmall : IsSmall c := .inl hc
      have hword : c ≠ '_' ∧ spaced c.toUpper = ['_', c] :=
        hsmall.inspect (P := fun c => c.isLower = true → c ≠ '_' ∧ spaced c.toUpper = ['_', c]) (by decide) hc
      rw [joinWords, if_pos rfl, joinWords, if_neg hword.1, if_pos rfl, hsmall.isWordChar.upper_eq,
        List.singleton_append, List.flatMap_cons, hword.2, ih]
      rfl

/-- A name whose capitals start its words is these words run together. -/
theorem joinWords_flatMap_spaced (h : ∀ c ∈ rest, c.isAlphanum = true) :
    joinWords false (rest.flatMap spaced) = rest := by
  induction rest with
  | nil => rfl
  | cons c rest ih =>
      obtain ⟨hc, hrest⟩ := List.forall_mem_cons.1 h
      have hunderscore := Text.toLower_ne_underscore hc
      rw [List.flatMap_cons, spaced]
      -- A capital is spaced as an underscore and its small letter, which joining turns back.
      cases hcapital : c.isUpper with
      | false =>
          rw [if_neg Bool.false_ne_true, List.nil_append, List.singleton_append, joinWords, if_neg hunderscore,
            if_neg Bool.false_ne_true, ih hrest, Char.toLower_eq_of_not_isUpper (Bool.eq_false_iff.1 hcapital)]
      | true =>
          have hsmall : IsSmall c.toLower := .inl (Text.isLower_toLower hcapital)
          rw [if_pos rfl, List.singleton_append, List.cons_append, List.singleton_append, joinWords, if_pos rfl,
            joinWords, if_neg hunderscore, if_pos rfl, hsmall.isWordChar.upper_eq, List.singleton_append, ih hrest,
            Char.toUpper_toLower_eq_toUpper, Char.toUpper_eq_of_not_isLower (Char.not_isLower_of_isUpper hcapital)]

/-! ## Variants -/

/-- In camel form a variant's name is the words of its snake form run together. -/
theorem variantChars_camel (h : IsVariantName name) :
    variantChars .camel name = joinWords false (snakeChars name) := by
  obtain ⟨first, rest, rfl, hfirst, hrest⟩ := h
  have hunderscore := Text.toLower_ne_underscore (Text.isAlphanum_of_isUpper hfirst)
  change joinWords false ((snakeChars (first :: rest)).dropWhile (· = '_')) = _
  rw [snakeChars_cons hfirst, List.dropWhile_cons_of_neg (by simpa using hunderscore)]

/-- On the wire it is the words that its capitals start. -/
theorem wireVariantChars_camel (h : IsVariantName name) :
    wireVariantChars .camel name = joinWords false (spread name) := by
  obtain ⟨first, rest, rfl, hfirst, hrest⟩ := h
  have hunderscore := Text.toLower_ne_underscore (Text.isAlphanum_of_isUpper hfirst)
  rw [wireVariantChars, List.modifyHead_cons, spread, joinWords, if_neg hunderscore, if_neg Bool.false_ne_true,
    joinWords_flatMap_spaced hrest]

/-- **When variants are spelled as on the wire.** A variant's name is spelled as a serializer spells it if and
only if the rule changes the case alone, or no capital in the name follows a capital without being followed by a
lower-case letter. -/
theorem ofVariant_eq_wireVariant_iff (rule : Casing) (name : String) (h : IsVariantName name.toList) :
    rule.ofVariant name = rule.wireVariant name ↔
      rule = .lower ∨ rule = .upper ∨ rule = .pascal ∨ ¬ HasAcronym name.toList := by
  have hchars : rule.ofVariant name = rule.wireVariant name ↔
      rule.variantChars name.toList = rule.wireVariantChars name.toList := by
    unfold ofVariant wireVariant
    rw [← String.toList_inj, String.toList_ofList, String.toList_ofList]
  obtain ⟨hsnake, hspread⟩ := h.isSpaced
  rw [hchars, ← snakeChars_eq_spread_iff h]
  -- Three rules keep no word boundary; the other five can be undone on spaced names, so they compare the
  -- two spacings.
  cases rule with
  | lower => simp [variantChars, wireVariantChars]
  | upper => simp [variantChars, wireVariantChars]
  | pascal => simp [variantChars, wireVariantChars]
  | camel =>
      rw [variantChars_camel h, wireVariantChars_camel h]
      have hspell := spell_eq_iff (joinWords false) (·.flatMap spaced) (fun _ => flatMap_spaced_joinWords)
        hsnake hspread
      exact hspell.trans (by simp)
  | snake => simp [variantChars, wireVariantChars, fieldChars]
  | screamingSnake =>
      have hspell := spell_eq_iff (·.map Char.toUpper) (·.map Char.toLower)
        (fun _ => map_map_of_isSpaced _ _ (by decide)) hsnake hspread
      exact hspell.trans (by simp)
  | kebab =>
      have hspell := spell_eq_iff (·.map hyphen) (·.map fun c => if c = '-' then '_' else c)
        (fun _ => map_map_of_isSpaced _ _ (by decide)) hsnake hspread
      exact hspell.trans (by simp)
  | screamingKebab =>
      have hread : ∀ name, IsSpaced name →
          ((name.map hyphen).map Char.toUpper).map (fun c => if c = '-' then '_' else c.toLower) = name := by
        intro name hname
        rw [List.map_map]
        exact map_map_of_isSpaced _ _ (by decide) hname
      have hspell := spell_eq_iff (fun name => (name.map hyphen).map Char.toUpper)
        (·.map fun c => if c = '-' then '_' else c.toLower) hread hsnake hspread
      exact hspell.trans (by simp)

/-- A capital behind a digit starts a word, and so does the last one of two before a lower-case letter. -/
theorem ofVariant_eq_wireVariant_iff_parsed :
    IsVariantName "Http2XParsed".toList ∧ ¬ HasAcronym "Http2XParsed".toList ∧
      snake.ofVariant "Http2XParsed" = snake.wireVariant "Http2XParsed" ∧
        snake.wireVariant "Http2XParsed" = "http2_x_parsed" := by
  have hname : IsVariantName "Http2XParsed".toList :=
    ⟨'H', "ttp2XParsed".toList, rfl, rfl, List.all_eq_true.1 (by decide)⟩
  have hsame : snake.ofVariant "Http2XParsed" = snake.wireVariant "Http2XParsed" := by decide
  have hplain := (ofVariant_eq_wireVariant_iff snake "Http2XParsed" hname).1 hsame
  exact ⟨hname, by simpa using hplain, hsame, by decide⟩

/-- An acronym is one word here, and as many words as it has letters on the wire. -/
theorem not_ofVariant_eq_wireVariant : ¬ ∀ (rule : Casing) (name : String), IsVariantName name.toList →
    rule.ofVariant name = rule.wireVariant name := by
  intro h
  have hname : IsVariantName "HTTPServer".toList :=
    ⟨'H', "TTPServer".toList, rfl, rfl, List.all_eq_true.1 (by decide)⟩
  have hhere : snake.ofVariant "HTTPServer" = "http_server" := by decide
  have hwire : snake.wireVariant "HTTPServer" = "h_t_t_p_server" := by decide
  have hsame := h snake "HTTPServer" hname
  rw [hhere, hwire] at hsame
  exact absurd hsame (by decide)

end Casing

end PayloadSchema
