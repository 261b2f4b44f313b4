import PayloadSchema.Proofs.Metadata.Casing

/-!
# The snake form and its separators

Underscores, hyphens and spaces separate the words of a name. The snake form moves its separators and changes
nothing else but capitals to small letters: one step writes at most one underscore, and then what is kept of the
character that was read (`snakeFrom_step`). So all that is said here of a whole name is said of one character
first, whatever was read before it and whatever was written last.

* `filter_snakeFrom` — up to underscores, the snake form is what is kept of the characters, in their order;
* `snakeCase_separators` — no letter or digit of an ASCII name is lost, added or moved, and the snake form has
  itself as its snake form.
-/

namespace PayloadSchema

open Text (IsAscii IsWordChar isUpper lower)

/-- A character that stands between words. -/
def IsSeparator (c : Char) : Prop := c = '_' ∨ c = '-' ∨ c = ' '

instance (c : Char) : Decidable (IsSeparator c) := inferInstanceAs (Decidable (_ ∨ _ ∨ _))

/-- A character that may stand in a snake form: no capital, no hyphen and no space. -/
def IsSnakeChar (c : Char) : Prop := c.isUpper = false ∧ c ≠ '-' ∧ c ≠ ' '

instance (c : Char) : Decidable (IsSnakeChar c) := inferInstanceAs (Decidable (_ ∧ _ ∧ _))

/-- What is kept of a character: nothing of a hyphen or a space, and a capital as a small letter. -/
def kept (c : Char) : List Char :=
  if c = '-' ∨ c = ' ' then [] else if isUpper c then lower c else [c]

variable {c : Char} {name : List Char}

/-! ## One step -/

/-- **One step** writes at most one underscore, and what is kept of a character. -/
theorem snakeFrom_step (previous written : Option Char) (c : Char) (rest : List Char) :
    ∃ gap written', (gap = [] ∨ gap = ['_']) ∧
      snakeFrom previous written (c :: rest) = gap ++ kept c ++ snakeFrom (some c) written' rest := by
  rw [snakeFrom, kept]
  -- A separator leaves at most one underscore, any other character its lower case after one.
  by_cases hmark : c = '-' ∨ c = ' '
  · rw [if_pos hmark, if_pos hmark]
    split
    · exact ⟨[], written, .inl rfl, rfl⟩
    · exact ⟨['_'], some '_', .inr rfl, rfl⟩
  · rw [if_neg hmark, if_neg hmark]
    split
    · refine ⟨if startsWord previous rest && written != some '_' then ['_'] else [],
        (lower c).getLast?.or written, ?_, rfl⟩
      split
      · exact .inr rfl
      · exact .inl rfl
    · exact ⟨[], some c, .inl rfl, rfl⟩

/-- Of an ASCII character its small letter is kept. -/
theorem kept_eq (h : IsAscii c) : kept c = if c = '-' ∨ c = ' ' then [] else [c.toLower] := by
  rw [kept, h.isUpper_eq, h.lower_eq]
  cases hcapital : c.isUpper with
  | false => rw [if_neg Bool.false_ne_true, Char.toLower_eq_of_not_isUpper (Bool.eq_false_iff.1 hcapital)]
  | true => rw [if_pos rfl]

/-- What is kept of an ASCII character is one, and may stand in a snake form. -/
theorem forall_mem_kept (h : IsAscii c) : ∀ d ∈ kept c, IsAscii d ∧ IsSnakeChar d := by
  have hlower : ¬ (c = '-' ∨ c = ' ') → IsAscii c.toLower ∧ IsSnakeChar c.toLower :=
    h.inspect (P := fun c => ¬ (c = '-' ∨ c = ' ') → IsAscii c.toLower ∧ IsSnakeChar c.toLower) (by decide)
  rw [kept_eq h]
  split
  · exact List.forall_mem_nil _
  next hmark => exact List.forall_mem_singleton.2 (hlower hmark)

/-- What is kept of an ASCII character, underscores apart, is its small letter, separators apart. -/
theorem filter_kept (h : IsAscii c) :
    (kept c).filter (· ≠ '_') = [c.toLower].filter fun d => ¬ IsSeparator d := by
  rw [kept_eq h]
  exact h.inspect (P := fun c => (if c = '-' ∨ c = ' ' then [] else [c.toLower]).filter (· ≠ '_') =
    [c.toLower].filter fun d => ¬ IsSeparator d) (by decide)

/-! ## Whole names -/

/-- Each character of the snake form is an underscore, or is kept of a character of the name. -/
theorem mem_snakeFrom {d : Char} {previous written : Option Char} (h : d ∈ snakeFrom previous written name) :
    d = '_' ∨ ∃ c ∈ name, d ∈ kept c := by
  induction name generalizing previous written with
  | nil => exact absurd h List.not_mem_nil
  | cons c name ih =>
      rcases snakeFrom_step previous written c name with ⟨gap, written', hgap, hstep⟩
      rw [hstep, List.mem_append, List.mem_append] at h
      -- In the gap, from this character, or from a later one.
      rcases h with (hd | hd) | hd
      · rcases hgap with rfl | rfl
        · exact absurd hd List.not_mem_nil
        · exact .inl (List.mem_singleton.1 hd)
      · exact .inr ⟨c, List.mem_cons_self, hd⟩
      · rcases ih hd with hunderscore | ⟨c', hc', hd⟩
        · exact .inl hunderscore
        · exact .inr ⟨c', List.mem_cons_of_mem c hc', hd⟩

/-- **Separators apart nothing changes.** Without its underscores the snake form is what is kept of the characters
of the name, in their order, without underscores. -/
theorem filter_snakeFrom (previous written : Option Char) (name : List Char) :
    (snakeFrom previous written name).filter (· ≠ '_') = (name.flatMap kept).filter (· ≠ '_') := by
  -- where a gap is written depends on `previous` and `written`, but a gap leaves nothing behind here
  induction name generalizing previous written with
  | nil => rfl
  | cons c name ih =>
      rcases snakeFrom_step previous written c name with ⟨gap, written', hgap, hstep⟩
      have hnone : gap.filter (· ≠ '_') = [] := by
        rcases hgap with rfl | rfl <;> rfl
      rw [hstep, List.filter_append, List.filter_append, hnone, ih, List.flatMap_cons, List.filter_append,
        List.nil_append]

/-- A name in snake case has characters of snake case only. -/
theorem forall_mem_snakeChars (h : ∀ c ∈ name, IsAscii c) :
    ∀ d ∈ snakeChars name, IsAscii d ∧ IsSnakeChar d := by
  intro d hd
  rcases mem_snakeFrom hd with rfl | ⟨c, hc, hd⟩
  · decide
  · exact forall_mem_kept (h c hc) d hd

/-- Apart from separators, a name in snake case has the characters of the name, in small letters. -/
theorem filter_snakeChars (h : ∀ c ∈ name, IsAscii c) :
    (snakeChars name).filter (· ≠ '_') = (name.map Char.toLower).filter fun c => ¬ IsSeparator c := by
  rw [snakeChars, filter_snakeFrom, List.filter_flatMap, List.map_eq_flatMap, List.filter_flatMap]
  exact List.flatMap_congr fun c hc => filter_kept (h c hc)

/-- A name in characters of snake case is in snake case already. -/
theorem snakeChars_of_forall (h : ∀ c ∈ name, IsAscii c ∧ IsSnakeChar c) : snakeChars name = name := by
  apply snakeFrom_of_forall
  · intro c hc
    rw [(h c hc).1.isUpper_eq]
    exact (h c hc).2.1
  · intro c hc hmark
    rcases hmark with hhyphen | hspace
    · exact (h c hc).2.2.1 hhyphen
    · exact (h c hc).2.2.2 hspace

/-- No letter and no digit is lost where only other characters are taken away. -/
theorem filter_isAlphanum_filter (p : Char → Bool) (hp : ∀ c, c.isAlphanum = true → p c = true)
    (name : List Char) : (name.filter p).filter Char.isAlphanum = name.filter Char.isAlphanum := by
  rw [List.filter_filter]
  refine List.filter_congr ?_
  intro c _
  cases halphanum : c.isAlphanum with
  | false => rfl
  | true => rw [hp c halphanum, Bool.true_and]

/-- The letters and digits of the snake form are those of the name. -/
theorem filter_isAlphanum_snakeChars (h : ∀ c ∈ name, IsAscii c) :
    (snakeChars name).filter Char.isAlphanum = (name.filter Char.isAlphanum).map Char.toLower := by
  -- Letters and digits are no separators, so taking the underscores out first changes nothing.
  have hword (c : Char) (hc : c.isAlphanum = true) : c ≠ '_' ∧ ¬ IsSeparator c :=
    IsWordChar.inspect (P := fun c => c.isAlphanum = true → c ≠ '_' ∧ ¬ IsSeparator c) (by decide) (.inl hc) hc
  have hlower (c : Char) (hc : c ∈ name) : c.toLower.isAlphanum = c.isAlphanum :=
    (h c hc).inspect (P := fun c => c.toLower.isAlphanum = c.isAlphanum) (by decide)
  calc (snakeChars name).filter Char.isAlphanum
      = ((snakeChars name).filter (· ≠ '_')).filter Char.isAlphanum :=
        (filter_isAlphanum_filter _ (fun c hc => decide_eq_true (hword c hc).1) _).symm
    _ = ((name.map Char.toLower).filter fun c => ¬ IsSeparator c).filter Char.isAlphanum := by
        rw [filter_snakeChars h]
    _ = (name.map Char.toLower).filter Char.isAlphanum :=
        filter_isAlphanum_filter _ (fun c hc => decide_eq_true (hword c hc).2) _
    _ = (name.filter Char.isAlphanum).map Char.toLower := by
        rw [List.filter_map]
        exact congrArg (List.map Char.toLower) (List.filter_congr hlower)

/-! ## Names -/

/-- **The snake form moves separators only.** The snake form of an ASCII name has no capital, no hyphen and no
space. Without its underscores it is the name in small letters without underscores, hyphens and spaces, so that
its letters and digits are those of the name in their order. A name that has no capital, no hyphen and no space is
its own snake form, and thus every snake form is. -/
theorem snakeCase_separators (name : String) (h : ∀ c ∈ name.toList, c.toNat < 128) :
    (∀ c ∈ (snakeCase name).toList, c.isUpper = false ∧ c ≠ '-' ∧ c ≠ ' ') ∧
      (snakeCase name).toList.filter (· ≠ '_') =
        (name.toList.map Char.toLower).filter (fun c => ¬ (c = '_' ∨ c = '-' ∨ c = ' ')) ∧
      (snakeCase name).toList.filter Char.isAlphanum = (name.toList.filter Char.isAlphanum).map Char.toLower ∧
      ((∀ c ∈ name.toList, c.isUpper = false ∧ c ≠ '-' ∧ c ≠ ' ') → snakeCase name = name) ∧
      snakeCase (snakeCase name) = snakeCase name := by
  have hsnake := forall_mem_snakeChars h
  have hfilter := filter_snakeChars h
  -- What the first conjunct says of the result is what makes it its own snake case.
  have hself (name : String) (h : ∀ c ∈ name.toList, IsAscii c ∧ IsSnakeChar c) : snakeCase name = name := by
    rw [snakeCase, snakeChars_of_forall h, String.ofList_toList]
  have hchars : (snakeCase name).toList = snakeChars name.toList := String.toList_ofList
  refine ⟨?_, ?_, ?_, ?_, ?_⟩
  · intro c hc
    rw [hchars] at hc
    exact (hsnake c hc).2
  · rw [hchars]
    exact hfilter
  · rw [hchars]
    exact filter_isAlphanum_snakeChars h
  · intro hname
    exact hself name fun c hc => ⟨h c hc, hname c hc⟩
  · apply hself
    rw [hchars]
    exact hsnake

/-- A name with separators of all kinds and with a run of capitals. -/
theorem snakeCase_separators_request :
    (∀ c ∈ " HTTPRequest-Id__ x2".toList, c.toNat < 128) ∧
      snakeCase " HTTPRequest-Id__ x2" = "http_request_id__x2" ∧
      snakeCase "http_request_id__x2" = "http_request_id__x2" := by
  have hascii : ∀ c ∈ " HTTPRequest-Id__ x2".toList, c.toNat < 128 := by
    have hall : " HTTPRequest-Id__ x2".toList.all (fun c => c.toNat < 128) = true := by decide
    simpa only [List.all_eq_true, decide_eq_true_eq] using hall
  have hsnake : snakeCase " HTTPRequest-Id__ x2" = "http_request_id__x2" := by decide
  rcases snakeCase_separators _ hascii with ⟨-, -, -, -, hidempotent⟩
  rw [hsnake] at hidempotent
  exact ⟨hascii, hsnake, hidempotent⟩

end PayloadSchema
