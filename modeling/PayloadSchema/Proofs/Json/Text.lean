import PayloadSchema.Proofs.Json.Numbers

/-!
# The texts of values

The text of a value is read wherever it stands, at every level of indentation, and with a budget that its
length bounds (`ReadsAs`). What is read is the draft of the value (`Value.draft`). The induction is over the
value: a bracket or a brace is followed by the text of a first element or member, and by the others that
follow it (`ElementsFollow`, `MembersFollow`).

* `stringBody?_quote` — strings are read back, with all their escapes;
* `Value.readsAs_renderAt`, `Value.ofText?_render` — values are read as their drafts.
-/

namespace PayloadSchema.Json

open Draft

/-! ## Strings -/

/-- The code of a control character is read back. -/
theorem hex4?_hexDigit : ∀ n < 32, hex4? '0' '0' (hexDigit (n / 16)) (hexDigit (n % 16)) = some n := by
  decide

/-- The code of a control character stands for the character, not for half of a pair. -/
theorem CodeUnit.ofEscape_toNat {c : Char} (h : c.toNat < 32) : CodeUnit.ofEscape c.toNat = .char c := by
  have hhigh : ¬ (0xD800 ≤ c.toNat ∧ c.toNat < 0xDC00) := by omega
  have hlow : ¬ (0xDC00 ≤ c.toNat ∧ c.toNat < 0xE000) := by omega
  rw [CodeUnit.ofEscape, if_neg hhigh, if_neg hlow, Char.ofNat_toNat]

/-- A character is read back from its escape. -/
theorem units_escapeChar (c : Char) (rest : List Char) :
    units (escapeChar c ++ rest) = (units rest).map fun (us, rest) => (.char c :: us, rest) := by
  unfold escapeChar
  -- Seven characters have an escape of their own, other control characters a numbered one.
  split_ifs with hquote hbackslash hnewline hreturn htab hback hfeed hcontrol
  · subst hquote; cases h : units rest <;> simp [units, h]
  · subst hbackslash; cases h : units rest <;> simp [units, h]
  · subst hnewline; cases h : units rest <;> simp [units, h]
  · subst hreturn; cases h : units rest <;> simp [units, h]
  · subst htab; cases h : units rest <;> simp [units, h]
  · obtain rfl : c = Char.ofNat 8 := by rw [← hback, Char.ofNat_toNat]
    cases h : units rest <;> simp [units, h]
  · obtain rfl : c = Char.ofNat 12 := by rw [← hfeed, Char.ofNat_toNat]
    cases h : units rest <;> simp [units, h]
  · have hcode := hex4?_hexDigit c.toNat hcontrol
    cases h : units rest <;> simp [units, h, hcode, CodeUnit.ofEscape_toNat hcontrol]
  · simp [units, hbackslash, hcontrol]

/-- Whole characters need no decoding. -/
theorem decodeUnits_map_char (cs : List Char) : decodeUnits (cs.map .char) = some cs := by
  induction cs with
  | nil => rfl
  | cons c cs ih => rw [List.map_cons, decodeUnits, ih, Option.map_some]

/-- A string after its opening quote is read up to its closing one. -/
theorem stringBody?_quote (s : String) (rest : List Char) :
    stringBody? (s.toList.flatMap escapeChar ++ '\"' :: rest) = some (some s, rest) := by
  have hunits (cs : List Char) :
      units (cs.flatMap escapeChar ++ '\"' :: rest) = some (cs.map .char, rest) := by
    induction cs with
    | nil => rfl
    | cons c cs ih => rw [List.flatMap_cons, List.append_assoc, units_escapeChar, ih]; rfl
  rw [stringBody?, hunits, Option.map_some]
  dsimp only
  rw [decodeUnits_map_char, Option.map_some, String.ofList_toList]

theorem quote_toList (s : String) : (quote s).toList = '\"' :: (s.toList.flatMap escapeChar ++ ['\"']) := by
  simp [quote]

/-- A quoted string is read as a value wherever it stands. -/
theorem value_quote (budget : Nat) (s : String) (rest : List Char) :
    value (budget + 1) ((quote s).toList ++ rest) = some (.string (some s), rest) := by
  have hquote : (quote s).toList ++ rest = '\"' :: (s.toList.flatMap escapeChar ++ '\"' :: rest) := by
    simp [quote_toList]
  have hskip : skipSpace ((quote s).toList ++ rest) =
      '\"' :: (s.toList.flatMap escapeChar ++ '\"' :: rest) := by
    rw [hquote]
    rfl
  rw [value, hskip]
  exact congrArg (Option.map _) (stringBody?_quote s rest)

/-- A value begins with something other than a closing bracket. -/
theorem exists_of_value {budget : Nat} {cs : List Char} {found : Draft × List Char}
    (h : value budget cs = some found) : ∃ c rest, skipSpace cs = c :: rest ∧ c ≠ ']' := by
  cases budget with
  | zero => cases h
  | succ budget =>
      rw [value] at h
      split at h
      -- Every other value starts with a fixed character; a number starts with a digit or a minus.
      case h_8 =>
        obtain ⟨found, hnumber, -⟩ := Option.map_eq_some_iff.1 h
        obtain ⟨c, rest, hcs, hc⟩ := exists_of_number? hnumber
        refine ⟨c, rest, hcs, ?_⟩
        rintro rfl
        revert hc
        decide
      all_goals exact ⟨_, _, by assumption, by decide⟩

/-! ## Space -/

/-- Behind the space there is no more of it. -/
theorem skipSpace_idem (cs : List Char) : skipSpace (skipSpace cs) = skipSpace cs := by
  unfold skipSpace
  induction cs with
  | nil => rfl
  | cons c cs ih =>
      rw [List.dropWhile_cons]
      split
      · exact ih
      next h => rw [List.dropWhile_cons, if_neg h]

/-- A new line with its indentation is all space. -/
theorem skipSpace_newline (level : Nat) (cs : List Char) :
    skipSpace ((newline level).toList ++ cs) = skipSpace cs := by
  unfold skipSpace newline
  rw [String.toList_ofList]
  refine List.dropWhile_append_of_pos ?_
  intro c hc
  rcases List.mem_cons.1 hc with rfl | hc
  · rfl
  · rw [List.eq_of_mem_replicate hc]
    rfl

/-- Space before a value does not matter. -/
theorem value_congr (budget : Nat) {cs cs' : List Char} (h : skipSpace cs = skipSpace cs') :
    value budget cs = value budget cs' := by
  cases budget with
  | zero => rfl
  | succ budget => rw [value, value, h]

/-- Space before the elements of an array does not matter. -/
theorem elements_congr (budget : Nat) {cs cs' : List Char} (h : skipSpace cs = skipSpace cs') :
    elements budget cs = elements budget cs' := by
  cases budget with
  | zero => rfl
  | succ budget => rw [elements, elements, value_congr budget h]

/-- Space before the members of an object does not matter. -/
theorem members_congr (budget : Nat) {cs cs' : List Char} (h : skipSpace cs = skipSpace cs') :
    members budget cs = members budget cs' := by
  cases budget with
  | zero => rfl
  | succ budget => rw [members, members, h]

/-! ## Values -/

namespace Value

mutual
def numbers : Value → List Number
  | .number n => [n]
  | .array vs => numbersInElements vs
  | .object ms => numbersInMembers ms
  | _ => []
/-- The numbers in the elements of an array. -/
def numbersInElements : List Value → List Number
  | [] => []
  | v :: vs => numbers v ++ numbersInElements vs
/-- The numbers in the members of an object. -/
def numbersInMembers : List (String × Value) → List Number
  | [] => []
  | (_, v) :: ms => numbers v ++ numbersInMembers ms
end

mutual
/-- What the text of a value reads as. -/
def draft : Value → Draft
  | .null => .null
  | .bool b => .bool b
  | .number n => n.draft
  | .string s => .string (some s)
  | .array vs => .array (draftElements vs)
  | .object ms => .object (draftMembers ms)
/-- What the elements of an array read as. -/
def draftElements : List Value → List Draft
  | [] => []
  | v :: vs => draft v :: draftElements vs
/-- What the members of an object read as. -/
def draftMembers : List (String × Value) → List (Option String × Draft)
  | [] => []
  | (k, v) :: ms => (some k, draft v) :: draftMembers ms
end

theorem draftElements_eq (vs : List Value) : draftElements vs = vs.map draft := by
  induction vs with
  | nil => rfl
  | cons v vs ih => rw [draftElements, ih, List.map_cons]

theorem draftMembers_eq (ms : List (String × Value)) :
    draftMembers ms = ms.map fun m => (some m.1, m.2.draft) := by
  induction ms with
  | nil => rfl
  | cons m ms ih => rw [draftMembers, ih, List.map_cons]

theorem numbersInElements_eq (vs : List Value) : numbersInElements vs = vs.flatMap numbers := by
  induction vs with
  | nil => rfl
  | cons v vs ih => rw [numbersInElements, ih, List.flatMap_cons]

theorem numbersInMembers_eq (ms : List (String × Value)) :
    numbersInMembers ms = ms.flatMap fun m => m.2.numbers := by
  induction ms with
  | nil => rfl
  | cons m ms ih => rw [numbersInMembers, ih, List.flatMap_cons]

end Value

/-- A text is read as a draft wherever it stands. Its length is budget enough. -/
def ReadsAs (text : List Char) (d : Draft) : Prop :=
  ∀ budget rest, text.length ≤ budget → Follows rest → value budget (text ++ rest) = some (d, rest)

theorem skipSpace_comma (rest : List Char) : skipSpace (',' :: rest) = ',' :: rest := rfl

/-- A new line is followed by two blanks for each level. -/
theorem length_newline (level : Nat) : (newline level).toList.length = 2 * level + 1 := by
  simp [newline]

/-- A new line may stand after a number. -/
theorem follows_newline (level : Nat) (rest : List Char) : Follows ((newline level).toList ++ rest) := by
  rw [newline, String.toList_ofList]
  exact .newline _

/-- An opening bracket is read as an array of the elements behind it, if it is not closed at once. -/
theorem value_of_bracket {budget : Nat} {cs rest : List Char} (h : skipSpace cs = '[' :: rest)
    (hne : ∀ left, skipSpace rest ≠ ']' :: left) :
    value (budget + 1) cs = (elements budget rest).map fun (vs, rest) => (.array vs, rest) := by
  simp only [value, h]
  rw [elements_congr budget (skipSpace_idem rest)]

/-- An opening brace is read as an object of the members behind it, if it is not closed at once. -/
theorem value_of_brace {budget : Nat} {cs rest : List Char} (h : skipSpace cs = '\x7b' :: rest)
    (hne : ∀ left, skipSpace rest ≠ '\x7d' :: left) :
    value (budget + 1) cs = (members budget rest).map fun (ms, rest) => (.object ms, rest) := by
  simp only [value, h]
  rw [members_congr budget (skipSpace_idem rest)]

/-- The last element of an array is read. -/
theorem elements_last {budget : Nat} {cs rest left : List Char} {d : Draft}
    (hvalue : value budget cs = some (d, rest)) (hrest : skipSpace rest = ']' :: left) :
    elements (budget + 1) cs = some ([d], left) := by
  simp only [elements, hvalue, Option.bind_eq_bind, Option.bind_some, hrest]

/-- An element is read, and those after it. -/
theorem elements_more {budget : Nat} {cs rest left : List Char} {d : Draft}
    (hvalue : value budget cs = some (d, rest)) (hrest : skipSpace rest = ',' :: left) :
    elements (budget + 1) cs = (elements budget left).map fun (vs, rest) => (d :: vs, rest) := by
  simp only [elements, hvalue, Option.bind_eq_bind, Option.bind_some, hrest]

/-- The elements of an array begin with something other than a closing bracket. -/
theorem exists_of_elements {budget : Nat} {cs : List Char} {found : List Draft × List Char}
    (h : elements budget cs = some found) : ∃ c rest, skipSpace cs = c :: rest ∧ c ≠ ']' := by
  cases budget with
  | zero => cases h
  | succ budget =>
      rw [elements] at h
      obtain ⟨v, hvalue, -⟩ := Option.bind_eq_some_iff.1 h
      exact exists_of_value hvalue

/-- A quoted string begins with no space. -/
theorem skipSpace_quote (s : String) (rest : List Char) :
    skipSpace ((quote s).toList ++ rest) = '\"' :: (s.toList.flatMap escapeChar ++ '\"' :: rest) := by
  rw [quote_toList, List.cons_append, List.append_assoc]
  rfl

/-- A member is read by its quoted name and its value, and is the last one or is followed by others. -/
theorem members_quote (budget : Nat) (k : String) (cs : List Char) :
    members (budget + 1) ((quote k).toList ++ ':' :: ' ' :: cs) =
      (value budget cs).bind fun (v, rest) =>
        match skipSpace rest with
        | ',' :: rest => (members budget rest).map fun (ms, rest) => ((some k, v) :: ms, rest)
        | '\x7d' :: rest => some ([(some k, v)], rest)
        | _ => none := by
  have hcolon : skipSpace (':' :: ' ' :: cs) = ':' :: ' ' :: cs := rfl
  have hspace : value budget (' ' :: cs) = value budget cs := value_congr budget rfl
  rw [members, skipSpace_quote]
  simp only [stringBody?_quote, Option.bind_eq_bind, Option.bind_some, hcolon]
  exact congrArg (Option.bind · _) hspace

/-- The last member of an object is read. -/
theorem members_last {budget : Nat} {k : String} {cs rest left : List Char} {d : Draft}
    (hvalue : value budget cs = some (d, rest)) (hrest : skipSpace rest = '\x7d' :: left) :
    members (budget + 1) ((quote k).toList ++ ':' :: ' ' :: cs) = some ([(some k, d)], left) := by
  simp only [members_quote, hvalue, Option.bind_some, hrest]

/-- A member is read, and those after it. -/
theorem members_more {budget : Nat} {k : String} {cs rest left : List Char} {d : Draft}
    (hvalue : value budget cs = some (d, rest)) (hrest : skipSpace rest = ',' :: left) :
    members (budget + 1) ((quote k).toList ++ ':' :: ' ' :: cs) =
      (members budget left).map fun (ms, rest) => ((some k, d) :: ms, rest) := by
  simp only [members_quote, hvalue, Option.bind_some, hrest]

/-- A text is read wherever it stands, if one unit of the budget is enough. -/
theorem ReadsAs.of_succ {text : List Char} {d : Draft}
    (h : ∀ budget rest, Follows rest → value (budget + 1) (text ++ rest) = some (d, rest)) :
    ReadsAs text d := by
  intro budget rest hlength hrest
  cases budget with
  | zero =>
      have hnil : text = [] := List.eq_nil_of_length_eq_zero (Nat.le_zero.1 hlength)
      have hnothing := h 0 [] .nil
      rw [hnil] at hnothing
      cases hnothing
  | succ budget => exact h budget rest hrest

theorem readsAs_null : ReadsAs "null".toList .null := .of_succ fun _ _ _ => rfl

theorem readsAs_bool (b : Bool) : ReadsAs (if b then "true" else "false").toList (.bool b) := by
  cases b <;> exact .of_succ fun _ _ _ => rfl

theorem readsAs_no_elements : ReadsAs "[]".toList (.array []) := .of_succ fun _ _ _ => rfl

theorem readsAs_no_members : ReadsAs "\x7b\x7d".toList (.object []) := .of_succ fun _ _ _ => rfl

section

open Value

variable {level : Nat}

/-- After an element, a text is read as the elements that follow it, up to the closing bracket. -/
def ElementsFollow (level : Nat) (text : List Char) (ds : List Draft) : Prop :=
  ∀ {first : List Char} {d : Draft}, ReadsAs first d →
    ∀ budget rest, first.length + text.length < budget →
      elements budget (first ++ (text ++ ((newline level).toList ++ ']' :: rest))) = some (d :: ds, rest)

/-- After a member, a text is read as the members that follow it, up to the closing brace. -/
def MembersFollow (level : Nat) (text : List Char) (ds : List (Option String × Draft)) : Prop :=
  ∀ (k : String) {first : List Char} {d : Draft}, ReadsAs first d →
    ∀ budget rest, first.length + text.length < budget →
      members budget ((quote k).toList ++ ':' :: ' ' ::
        (first ++ (text ++ ((newline level).toList ++ '\x7d' :: rest)))) = some ((some k, d) :: ds, rest)

/-- After the last element comes the closing bracket. -/
theorem elementsFollow_nil : ElementsFollow level [] [] := by
  intro first d hfirst budget rest hlength
  cases budget with
  | zero => omega
  | succ budget =>
      have hvalue := hfirst budget _ (by omega) (follows_newline level (']' :: rest))
      have hend : skipSpace ((newline level).toList ++ ']' :: rest) = ']' :: rest := skipSpace_newline _ _
      exact elements_last hvalue hend

/-- After an element come a comma, a new line and the next one. -/
theorem elementsFollow_cons {v : Value} {vs : List Value} {d : Draft} {ds : List Draft}
    (hv : ReadsAs (renderAt (level + 1) v).toList d)
    (hvs : ElementsFollow level (renderElements level vs).toList ds) :
    ElementsFollow level (renderElements level (v :: vs)).toList (d :: ds) := by
  have hshape (cs : List Char) : (renderElements level (v :: vs)).toList ++ cs =
      ',' :: ((newline (level + 1)).toList ++ ((renderAt (level + 1) v).toList ++
        ((renderElements level vs).toList ++ cs))) := by
    simp [renderElements]
  -- Each element takes more characters than levels of the budget, so the budget left is enough for the
  -- rest.
  have hsum : (renderElements level (v :: vs)).toList.length =
      (2 * (level + 1) + 1) + (renderAt (level + 1) v).toList.length +
        (renderElements level vs).toList.length + 1 := by
    simp [renderElements, length_newline]
    omega
  intro first d hfirst budget rest hlength
  cases budget with
  | zero => omega
  | succ budget =>
      rw [hshape, elements_more (hfirst budget _ (by omega) (.comma _)) (skipSpace_comma _),
        elements_congr budget (skipSpace_newline _ _), hvs hv _ _ (by omega)]
      rfl

/-- An array is read by its first element and those that follow it. -/
theorem readsAs_array {v : Value} {vs : List Value} {d : Draft} {ds : List Draft}
    (hv : ReadsAs (renderAt (level + 1) v).toList d)
    (hvs : ElementsFollow level (renderElements level vs).toList ds) :
    ReadsAs (renderAt level (.array (v :: vs))).toList (.array (d :: ds)) := by
  intro budget rest hlength _
  have hshape : (renderAt level (.array (v :: vs))).toList ++ rest =
      '[' :: ((newline (level + 1)).toList ++ ((renderAt (level + 1) v).toList ++
        ((renderElements level vs).toList ++ ((newline level).toList ++ ']' :: rest)))) := by
    simp [renderAt]
  have hsum : (renderAt level (.array (v :: vs))).toList.length =
      (2 * (level + 1) + 1) + (renderAt (level + 1) v).toList.length +
        (renderElements level vs).toList.length + (2 * level + 1) + 2 := by
    simp [renderAt, length_newline]
    omega
  cases budget with
  | zero => omega
  | succ budget =>
      have helements := hvs hv budget rest (by omega)
      -- the array is not empty: what stands first is a value
      obtain ⟨c, left, hstart, hc⟩ := exists_of_elements helements
      have hne (left' : List Char) : skipSpace ((newline (level + 1)).toList ++
          ((renderAt (level + 1) v).toList ++ ((renderElements level vs).toList ++
            ((newline level).toList ++ ']' :: rest)))) ≠ ']' :: left' := by
        rw [skipSpace_newline, hstart]
        exact fun heq => hc (List.cons.inj heq).1
      rw [hshape, value_of_bracket rfl hne, elements_congr budget (skipSpace_newline _ _), helements]
      rfl

/-- After the last member comes the closing brace. -/
theorem membersFollow_nil : MembersFollow level [] [] := by
  intro k first d hfirst budget rest hlength
  cases budget with
  | zero => omega
  | succ budget =>
      have hvalue := hfirst budget _ (by omega) (follows_newline level ('\x7d' :: rest))
      have hend : skipSpace ((newline level).toList ++ '\x7d' :: rest) = '\x7d' :: rest :=
        skipSpace_newline _ _
      exact members_last hvalue hend

/-- After a member come a comma, a new line and the next one. -/
theorem membersFollow_cons {k' : String} {v : Value} {ms : List (String × Value)} {d : Draft}
    {ds : List (Option String × Draft)} (hv : ReadsAs (renderAt (level + 1) v).toList d)
    (hms : MembersFollow level (renderMembers level ms).toList ds) :
    MembersFollow level (renderMembers level ((k', v) :: ms)).toList ((some k', d) :: ds) := by
  have hshape (cs : List Char) : (renderMembers level ((k', v) :: ms)).toList ++ cs =
      ',' :: ((newline (level + 1)).toList ++ ((quote k').toList ++ ':' :: ' ' ::
        ((renderAt (level + 1) v).toList ++ ((renderMembers level ms).toList ++ cs)))) := by
    simp [renderMembers]
  -- The budget is compared with the length of the text, as for the elements of an array.
  have hsum : (renderMembers level ((k', v) :: ms)).toList.length =
      (2 * (level + 1) + 1) + (quote k').toList.length + (renderAt (level + 1) v).toList.length +
        (renderMembers level ms).toList.length + 3 := by
    simp [renderMembers, length_newline]
    omega
  intro k first d hfirst budget rest hlength
  cases budget with
  | zero => omega
  | succ budget =>
      rw [hshape, members_more (hfirst budget _ (by omega) (.comma _)) (skipSpace_comma _),
        members_congr budget (skipSpace_newline _ _), hms k' hv _ _ (by omega)]
      rfl

/-- An object is read by its first member and those that follow it. -/
theorem readsAs_object {k : String} {v : Value} {ms : List (String × Value)} {d : Draft}
    {ds : List (Option String × Draft)} (hv : ReadsAs (renderAt (level + 1) v).toList d)
    (hms : MembersFollow level (renderMembers level ms).toList ds) :
    ReadsAs (renderAt level (.object ((k, v) :: ms))).toList (.object ((some k, d) :: ds)) := by
  intro budget rest hlength _
  have hshape : (renderAt level (.object ((k, v) :: ms))).toList ++ rest =
      '\x7b' :: ((newline (level + 1)).toList ++ ((quote k).toList ++ ':' :: ' ' ::
        ((renderAt (level + 1) v).toList ++ ((renderMembers level ms).toList ++
          ((newline level).toList ++ '\x7d' :: rest))))) := by
    simp [renderAt]
  have hsum : (renderAt level (.object ((k, v) :: ms))).toList.length =
      (2 * (level + 1) + 1) + (quote k).toList.length + (renderAt (level + 1) v).toList.length +
        (renderMembers level ms).toList.length + (2 * level + 1) + 4 := by
    simp [renderAt, length_newline]
    omega
  cases budget with
  | zero => omega
  | succ budget =>
      -- An object with members does not close at once: what follows the opening brace is a quote.
      have hne (left : List Char) (cs : List Char) :
          skipSpace ((newline (level + 1)).toList ++ ((quote k).toList ++ cs)) ≠ '\x7d' :: left := by
        rw [skipSpace_newline, skipSpace_quote]
        exact fun heq => absurd (List.cons.inj heq).1 (by decide)
      rw [hshape, value_of_brace rfl fun left => hne left _,
        members_congr budget (skipSpace_newline _ _), hms k hv _ _ (by omega)]
      rfl

end

namespace Value

/-- Every number in a value has a property. -/
def AllNumbers (P : Number → Prop) (v : Value) : Prop := ∀ n ∈ v.numbers, P n

/-- Every number in a value that has a text is read back as the same number. -/
def Legible (v : Value) : Prop := v.AllNumbers fun n => n.isFinite = true → n.Legible

mutual
/-- What is written is read as its draft, at every level of indentation and wherever it stands. -/
theorem readsAs_renderAt (level : Nat) : (v : Value) → ReadsAs (renderAt level v).toList v.draft
  | .null => readsAs_null
  | .bool b => readsAs_bool b
  | .number n => .of_succ fun budget _ hrest => n.value_render hrest budget
  | .string s => .of_succ fun budget rest _ => value_quote budget s rest
  | .array [] => readsAs_no_elements
  | .array (v :: vs) => readsAs_array (readsAs_renderAt (level + 1) v) (elementsFollow_render level vs)
  | .object [] => readsAs_no_members
  | .object ((_, v) :: ms) => readsAs_object (readsAs_renderAt (level + 1) v) (membersFollow_render level ms)
/-- The text of the elements is read as those that follow. -/
theorem elementsFollow_render (level : Nat) : (vs : List Value) →
    ElementsFollow level (renderElements level vs).toList (draftElements vs)
  | [] => elementsFollow_nil
  | v :: vs => elementsFollow_cons (readsAs_renderAt (level + 1) v) (elementsFollow_render level vs)
/-- The text of the members is read as those that follow. -/
theorem membersFollow_render (level : Nat) : (ms : List (String × Value)) →
    MembersFollow level (renderMembers level ms).toList (draftMembers ms)
  | [] => membersFollow_nil
  | (_, v) :: ms => membersFollow_cons (readsAs_renderAt (level + 1) v) (membersFollow_render level ms)
end

/-- The text of a value is read as its draft. -/
theorem ofText?_render (v : Value) : Draft.ofText? v.render = some v.draft := by
  refine ofText?_of_value ?_
  intro budget hlength
  have hread := readsAs_renderAt 0 v budget [] hlength .nil
  rw [List.append_nil] at hread
  exact hread

end Value

end PayloadSchema.Json
