import Mathlib
import PayloadSchema.Handlers.Argument

/-!
# Arguments read back

An argument is cut at the first equals sign, at the first colon behind it, and at the first colon that stands
alone behind that. A request may have any pairs of colons in it, as the path of a type has, but no colon that
stands alone (`HasLoneColon`); then the cut is made where the response was joined to it
(`Text.cutLoneColon_append`).

* `HandlerEntry.ofArgument_eq` — what an argument stands for, by its parts;
* `HandlerEntry.ofArgument_written` — the parts of an entry are read back from an argument, and an argument is
  refused only if it has no equals sign, no name or no file.
-/

namespace PayloadSchema

/-- Nothing but blanks. -/
def IsBlank (text : String) : Prop := ∀ c ∈ text.toList, Text.isBlank c = true

instance (text : String) : Decidable (IsBlank text) := List.decidableBAll _ _

/-- Some colon has no colon next to it. -/
def HasLoneColon (cs : List Char) : Prop :=
  ∃ before after, cs = before ++ ':' :: after ∧ before.getLast? ≠ some ':' ∧ after.head? ≠ some ':'

namespace Text

variable {mark : Char} {cs before after : List Char}

/-! ## The first of a character -/

/-- A text without the mark is not cut. -/
theorem cutAt_of_not_mem (h : mark ∉ cs) : cutAt mark cs = (cs, none) := by
  induction cs with
  | nil => rfl
  | cons c cs ih =>
      rcases List.ne_and_not_mem_of_not_mem_cons h with ⟨hc, hcs⟩
      rw [cutAt, if_neg hc.symm, ih hcs]

/-- The cut is made at the first of the marks. -/
theorem cutAt_append (h : mark ∉ before) (after : List Char) :
    cutAt mark (before ++ mark :: after) = (before, some after) := by
  induction before with
  | nil => rw [List.nil_append, cutAt, if_pos rfl]
  | cons c before ih =>
      rcases List.ne_and_not_mem_of_not_mem_cons h with ⟨hc, hbefore⟩
      rw [List.cons_append, cutAt, if_neg hc.symm, ih hbefore]

/-- What stands before the cut is all up to the first mark, or the whole text. -/
theorem cutAt_fst (mark : Char) (cs : List Char) : (cutAt mark cs).1 = cs.takeWhile (· ≠ mark) := by
  induction cs with
  | nil => rfl
  | cons c cs ih =>
      by_cases hc : c = mark
      · rw [cutAt, if_pos hc, List.takeWhile_cons_of_neg (by simpa using hc)]
      · rw [cutAt, if_neg hc, List.takeWhile_cons_of_pos (by simpa using hc), ← ih]

/-! ## The first colon that stands alone -/

theorem isColon_concat (start : List Char) (c : Char) : ((start ++ [c]).getLast? == some ':') = (c == ':') := by
  rw [List.getLast?_concat]
  rfl

/-- A colon that has no colon before it and none behind it is where the cut is made. -/
theorem cutLoneColon_go_colon {start : List Char} (hstart : start.getLast? ≠ some ':') (hafter : after.head? ≠ some ':') :
    cutLoneColon.go (start.getLast? == some ':') (':' :: after) = ([], some after) := by
  have hcut : ':' = ':' ∧ (!start.getLast? == some ':') = true ∧ after.head? ≠ some ':' :=
    ⟨rfl, by simpa using hstart, hafter⟩
  rw [cutLoneColon.go, if_pos hcut]

/-- Where no colon stands alone, none is found behind any part of the text. -/
theorem cutLoneColon_go_of_not_hasLoneColon (start : List Char) (h : ¬ HasLoneColon (start ++ cs)) :
    cutLoneColon.go (start.getLast? == some ':') cs = (cs, none) := by
  induction cs generalizing start with
  | nil => rfl
  | cons c cs ih =>
      -- a cut would be made at a colon that stands alone in the whole text
      have hcut : ¬ (c = ':' ∧ (!start.getLast? == some ':') = true ∧ cs.head? ≠ some ':') := by
        rintro ⟨rfl, hstart, hhead⟩
        exact h ⟨start, cs, rfl, by simpa using hstart, hhead⟩
      rw [List.append_cons] at h
      have ih := ih (start ++ [c]) h
      rw [isColon_concat] at ih
      rw [cutLoneColon.go, if_neg hcut, ih]

/-- A colon that stands alone behind some part of the text is found there, or one before it. -/
theorem cutLoneColon_go_ne_none (start : List Char) (hcs : cs = before ++ ':' :: after)
    (hlast : (start ++ before).getLast? ≠ some ':') (hafter : after.head? ≠ some ':') :
    (cutLoneColon.go (start.getLast? == some ':') cs).2 ≠ none := by
  subst hcs
  induction before generalizing start with
  | nil =>
      rw [List.append_nil] at hlast
      rw [List.nil_append, cutLoneColon_go_colon hlast hafter]
      exact Option.some_ne_none after
  | cons c before ih =>
      rw [List.append_cons] at hlast
      have ih := ih (start ++ [c]) hlast
      rw [isColon_concat] at ih
      rw [List.cons_append, cutLoneColon.go]
      split
      · exact Option.some_ne_none _
      · exact ih

/-- Where no colon stands alone there is no cut. -/
theorem cutLoneColon_of_not_hasLoneColon (h : ¬ HasLoneColon cs) : cutLoneColon cs = (cs, none) :=
  cutLoneColon_go_of_not_hasLoneColon [] h

/-- There is a cut if and only if some colon stands alone. -/
theorem cutLoneColon_eq_none_iff : (cutLoneColon cs).2 = none ↔ ¬ HasLoneColon cs := by
  constructor
  · rintro hnone ⟨before, after, hcs, hlast, hafter⟩
    exact cutLoneColon_go_ne_none [] hcs hlast hafter hnone
  · intro h
    rw [cutLoneColon_of_not_hasLoneColon h]

/-- A colon that is put between two texts is found behind any part of the first, if it stands alone there and no
colon does before. -/
theorem cutLoneColon_go_append (start : List Char) (h : ¬ HasLoneColon (start ++ before))
    (hlast : (start ++ before).getLast? ≠ some ':') (hafter : after.head? ≠ some ':') :
    cutLoneColon.go (start.getLast? == some ':') (before ++ ':' :: after) = (before, some after) := by
  induction before generalizing start with
  | nil =>
      rw [List.append_nil] at hlast
      rw [List.nil_append, cutLoneColon_go_colon hlast hafter]
  | cons c before ih =>
      have hcut : ¬ (c = ':' ∧ (!start.getLast? == some ':') = true ∧ (before ++ ':' :: after).head? ≠ some ':') := by
        rintro ⟨rfl, hstart, hhead⟩
        -- the colon that was put in is next to a colon at the end of the first text
        cases before with
        | nil => exact hhead rfl
        | cons d before => exact h ⟨start, d :: before, rfl, by simpa using hstart, hhead⟩
      rw [List.append_cons] at h hlast
      have ih := ih (start ++ [c]) h hlast
      rw [isColon_concat] at ih
      rw [List.cons_append, cutLoneColon.go, if_neg hcut, ih]

/-- A text is cut at the colon that was put behind it, if it has no colon that stands alone and none at its
end, and the other text does not begin with one. -/
theorem cutLoneColon_append (h : ¬ HasLoneColon before) (hlast : before.getLast? ≠ some ':')
    (hafter : after.head? ≠ some ':') : cutLoneColon (before ++ ':' :: after) = (before, some after) :=
  cutLoneColon_go_append [] h hlast hafter

/-! ## Blanks -/

/-- Only what is all blanks has nothing left without the blanks at its ends. -/
theorem trimChars_eq_nil_iff : trimChars cs = [] ↔ ∀ c ∈ cs, isBlank c = true := by
  rw [trimChars, trimEnd, List.reverse_eq_nil_iff, List.dropWhile_eq_nil_iff]
  constructor
  · intro h
    have hrest : (cs.dropWhile isBlank).dropWhile isBlank = [] :=
      List.dropWhile_eq_nil_iff.2 fun c hc => h c (List.mem_reverse.2 hc)
    rw [List.dropWhile_idempotent] at hrest
    exact List.dropWhile_eq_nil_iff.1 hrest
  · intro h c hc
    exact h c ((List.dropWhile_suffix isBlank).subset (List.mem_reverse.1 hc))

/-- A text is empty without the blanks at its ends if and only if it is blank. -/
theorem trim_eq_empty_iff {text : String} : trim text = "" ↔ IsBlank text := by
  rw [trim, IsBlank, ← trimChars_eq_nil_iff, ← String.toList_inj, String.toList_ofList]
  rfl

end Text

namespace HandlerEntry

/-! ## Parts of an argument -/

/-- A text without the blanks at its ends, if it has anything but blanks. -/
def stated? (text : String) : Option String := if IsBlank text then none else some (Text.trim text)

/-- The part that is left out when it is blank, by the text itself. -/
theorem nonBlank?_eq (text : String) : Text.nonBlank? text = stated? text := by
  unfold Text.nonBlank? stated?
  simp only [Text.trim_eq_empty_iff]

/-- A part of an argument, by its text. -/
theorem part?_toList (text : String) : part? text.toList = stated? text := by
  rw [part?, String.ofList_toList, nonBlank?_eq]

theorem stated?_of_not_isBlank {text : String} (h : ¬ IsBlank text) : stated? text = some (Text.trim text) := if_neg h

/-- What an argument stands for, by what is before its first equals sign and by the cut behind it. -/
theorem ofArgument_eq {argument : String} {name rest file : List Char} {types : Option (List Char)}
    (h : argument.toList = name ++ '=' :: rest) (hname : '=' ∉ name) (hrest : Text.cutAt ':' rest = (file, types)) :
    ofArgument argument =
      match part? name, part? file with
      | none, _ => .error (.noName argument)
      | some _, none => .error (.noFile argument)
      | some name, some file =>
        .ok { name, file := ⟨file⟩
              request := part? (Text.cutLoneColon (types.getD [])).1
              response := (Text.cutLoneColon (types.getD [])).2.bind part? } := by
  unfold ofArgument
  rw [h, Text.cutAt_append hname]
  dsimp only
  rw [hrest]
  cases part? name with
  | none => rfl
  | some name =>
      cases part? file with
      | none => rfl
      | some file => rfl

/-- An argument without an equals sign is refused as such. -/
theorem ofArgument_of_not_mem {argument : String} (h : '=' ∉ argument.toList) :
    ofArgument argument = .error (.noEqualsSign argument) := by
  unfold ofArgument
  rw [Text.cutAt_of_not_mem h]
  rfl

/-- An entry with a name and a file. -/
theorem ofArgument_of_not_isBlank {argument name file : String} {rest : List Char} {types : Option (List Char)}
    (h : argument.toList = name.toList ++ '=' :: rest) (hname : '=' ∉ name.toList)
    (hrest : Text.cutAt ':' rest = (file.toList, types)) (hname' : ¬ IsBlank name) (hfile' : ¬ IsBlank file) :
    ofArgument argument =
      .ok { name := Text.trim name, file := ⟨Text.trim file⟩
            request := part? (Text.cutLoneColon (types.getD [])).1
            response := (Text.cutLoneColon (types.getD [])).2.bind part? } := by
  rw [ofArgument_eq h hname hrest, part?_toList, part?_toList, stated?_of_not_isBlank hname',
    stated?_of_not_isBlank hfile']

/-! ## Arguments that are refused -/

/-- What stands before the first equals sign. -/
def namePart (argument : String) : List Char := argument.toList.takeWhile (· ≠ '=')

/-- What stands behind the first equals sign. -/
def restPart (argument : String) : List Char := (argument.toList.dropWhile (· ≠ '=')).tail

/-- What stands between the first equals sign and the next colon, or the end. -/
def filePart (argument : String) : List Char := (restPart argument).takeWhile (· ≠ ':')

/-- An argument with an equals sign is its name and what is behind the first such sign. -/
theorem toList_eq {argument : String} (h : '=' ∈ argument.toList) :
    argument.toList = namePart argument ++ '=' :: restPart argument := by
  unfold namePart restPart
  generalize argument.toList = cs at h ⊢
  induction cs with
  | nil => exact absurd h List.not_mem_nil
  | cons c cs ih =>
      -- The name ends at the first equals sign.
      by_cases hc : c = '='
      · rw [List.takeWhile_cons_of_neg (by simpa using hc), List.dropWhile_cons_of_neg (by simpa using hc), hc]
        rfl
      · have hcs : '=' ∈ cs := by
          rcases List.mem_cons.1 h with h | h
          · exact absurd h.symm hc
          · exact h
        rw [List.takeWhile_cons_of_pos (by simpa using hc), List.dropWhile_cons_of_pos (by simpa using hc),
          List.cons_append, ← ih hcs]

/-- The name of an argument has no equals sign. -/
theorem not_mem_namePart (argument : String) : '=' ∉ namePart argument := by
  intro h
  simpa using List.mem_takeWhile_imp h

/-- A part of an argument is left out if and only if it is all blanks. -/
theorem part?_eq_none_iff {cs : List Char} : part? cs = none ↔ ∀ c ∈ cs, Text.isBlank c = true := by
  rw [part?, nonBlank?_eq, stated?, ite_eq_left_iff, IsBlank, String.toList_ofList]
  simp

/-- An argument is refused if and only if it has no equals sign, no name or no file. -/
theorem exists_error_iff (argument : String) : (∃ e, ofArgument argument = .error e) ↔
    '=' ∉ argument.toList ∨ (∀ c ∈ namePart argument, Text.isBlank c = true) ∨
      ∀ c ∈ filePart argument, Text.isBlank c = true := by
  by_cases hmem : '=' ∈ argument.toList
  · -- With an equals sign there are three parts to look at, and only name and file may be missing.
    have hcut : Text.cutAt ':' (restPart argument) = (filePart argument, (Text.cutAt ':' (restPart argument)).2) :=
      Prod.ext (Text.cutAt_fst ':' _) rfl
    rw [ofArgument_eq (toList_eq hmem) (not_mem_namePart argument) hcut, ← part?_eq_none_iff, ← part?_eq_none_iff]
    cases part? (namePart argument) with
    | none => simp
    | some name =>
        cases part? (filePart argument) with
        | none => simp
        | some file => simp [hmem]
  · rw [ofArgument_of_not_mem hmem]
    simp [hmem]

/-! ## Arguments that are read back -/

/-- **Entries are read back.** A name without an equals sign, a file without a colon, a request without a colon
that stands alone or at its end, and a response without a colon at its start are found again in the argument
that they are joined to, without the blanks at their ends, whatever else is in them; a payload of nothing but
blanks is none. And an argument is refused only if it has no equals sign, if nothing but blanks stands before the
first one, or if nothing but blanks stands between it and the next colon or the end. -/
theorem ofArgument_written :
    (∀ name file request response : String, '=' ∉ name.toList → ':' ∉ file.toList → ¬ IsBlank name →
      ¬ IsBlank file → ¬ HasLoneColon request.toList → request.toList.getLast? ≠ some ':' →
      response.toList.head? ≠ some ':' →
        ofArgument (name ++ "=" ++ file) = .ok { name := Text.trim name, file := ⟨Text.trim file⟩ } ∧
        ofArgument (name ++ "=" ++ file ++ ":" ++ request) =
          .ok { name := Text.trim name, file := ⟨Text.trim file⟩, request := stated? request } ∧
        ofArgument (name ++ "=" ++ file ++ ":" ++ request ++ ":" ++ response) =
          .ok { name := Text.trim name, file := ⟨Text.trim file⟩, request := stated? request
                response := stated? response }) ∧
      ∀ argument, (∃ e, ofArgument argument = .error e) ↔
        '=' ∉ argument.toList ∨ (∀ c ∈ namePart argument, Text.isBlank c = true) ∨
          ∀ c ∈ filePart argument, Text.isBlank c = true := by
  refine ⟨?_, exists_error_iff⟩
  intro name file request response hname hfile hname' hfile' hrequest hlast hresponse
  constructor
  · -- The characters of the argument are those of its parts with the signs between them.
    have hchars : (name ++ "=" ++ file).toList = name.toList ++ '=' :: file.toList := by simp
    rw [ofArgument_of_not_isBlank hchars hname (Text.cutAt_of_not_mem hfile) hname' hfile']
    rfl
  constructor
  · have hchars : (name ++ "=" ++ file ++ ":" ++ request).toList =
        name.toList ++ '=' :: (file.toList ++ ':' :: request.toList) := by simp
    rw [ofArgument_of_not_isBlank hchars hname (Text.cutAt_append hfile _) hname' hfile', Option.getD_some,
      Text.cutLoneColon_of_not_hasLoneColon hrequest]
    simp only [part?_toList, Option.bind_none]
  · have hchars : (name ++ "=" ++ file ++ ":" ++ request ++ ":" ++ response).toList =
        name.toList ++ '=' :: (file.toList ++ ':' :: (request.toList ++ ':' :: response.toList)) := by simp
    rw [ofArgument_of_not_isBlank hchars hname (Text.cutAt_append hfile _) hname' hfile', Option.getD_some,
      Text.cutLoneColon_append hrequest hlast hresponse]
    simp only [part?_toList, Option.bind_some]

/-- A name in another script, a type by its path, and a response that starts like none. -/
theorem ofArgument_written_paths :
    ¬ HasLoneColon "models::User".toList ∧
      ofArgument " é=a=b.rs :models::User: Vec<u8::T> " =
        .ok { name := "é", file := ⟨"a=b.rs"⟩, request := some "models::User", response := some "Vec<u8::T>" } := by
  have hlone : ¬ HasLoneColon "models::User".toList := Text.cutLoneColon_eq_none_iff.1 (by decide)
  have hread := (ofArgument_written.1 " é" "a=b.rs " "models::User" " Vec<u8::T> " (by decide) (by decide) (by decide)
    (by decide) hlone (by decide) (by decide)).2.2
  refine ⟨hlone, Eq.trans hread ?_⟩
  decide

end HandlerEntry

end PayloadSchema
