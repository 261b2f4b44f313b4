import PayloadSchema.Text.Segments

/-!
# Segments joined and split

Segments without colons are found again in the text that they are joined to, and so is the first one, as
long as it has none itself. What is cut off at the last separator is what was put after it.

* `Segments.split_join`, `Segments.split_join_cons` — the segments of joined segments;
* `Segments.cutLast?_append` — what is before and after a name.
-/

namespace PayloadSchema.Segments

/-! ## Characters -/

/-- A text has at least one segment, even if it is empty. -/
theorem splitChars_ne_nil (cs : List Char) : splitChars cs ≠ [] := by
  fun_cases splitChars cs <;> simp

/-- A character that is no colon goes to the first segment. -/
theorem splitChars_cons_of_ne {c : Char} (hc : c ≠ ':') (cs : List Char) :
    ∃ part more, splitChars cs = part :: more ∧ splitChars (c :: cs) = (c :: part) :: more := by
  cases hcs : splitChars cs with
  | nil => exact absurd hcs (splitChars_ne_nil cs)
  | cons part more =>
      refine ⟨part, more, rfl, ?_⟩
      rw [splitChars, hcs]
      exact fun _ hcolon _ => hc hcolon

/-- A text without colons before a separator is a segment. -/
theorem splitChars_append {cs : List Char} (h : ':' ∉ cs) (rest : List Char) :
    splitChars (cs ++ ':' :: ':' :: rest) = cs :: splitChars rest := by
  induction cs with
  | nil => rfl
  | cons c cs ih =>
      obtain ⟨hc, hcs⟩ := List.ne_and_not_mem_of_not_mem_cons h
      obtain ⟨part, more, hparts, hcons⟩ := splitChars_cons_of_ne hc.symm (cs ++ ':' :: ':' :: rest)
      rw [ih hcs] at hparts
      cases hparts
      exact hcons

/-- A text without colons is a single segment. -/
theorem splitChars_of_not_mem {cs : List Char} (h : ':' ∉ cs) : splitChars cs = [cs] := by
  induction cs with
  | nil => rfl
  | cons c cs ih =>
      obtain ⟨hc, hcs⟩ := List.ne_and_not_mem_of_not_mem_cons h
      obtain ⟨part, more, hparts, hcons⟩ := splitChars_cons_of_ne hc.symm cs
      rw [ih hcs] at hparts
      cases hparts
      exact hcons

/-- A text without colons cannot be cut. -/
theorem cutLastChars?_of_not_mem {cs : List Char} (h : ':' ∉ cs) : cutLastChars? cs = none := by
  induction cs with
  | nil => rfl
  | cons c cs ih =>
      obtain ⟨hc, hcs⟩ := List.ne_and_not_mem_of_not_mem_cons h
      rw [cutLastChars?, ih hcs]
      intro after hcolon
      exact absurd hcolon.symm hc

/-- A text is cut at its last separator. -/
theorem cutLastChars?_append {name : List Char} (h : ':' ∉ name) (before : List Char) :
    cutLastChars? (before ++ ':' :: ':' :: name) = some (before, name) := by
  induction before with
  | nil =>
      -- a colon and the name have no separator
      have hone : cutLastChars? (':' :: name) = none := by
        rw [cutLastChars?, cutLastChars?_of_not_mem h]
        rintro after - rfl
        exact h List.mem_cons_self
      rw [List.nil_append, cutLastChars?, hone]
  | cons c before ih =>
      unfold cutLastChars?
      rw [List.cons_append]
      dsimp only
      rw [ih]

/-! ## Texts -/

/-- The segments of a segment with a text after it. -/
theorem split_append {segment : String} (h : ':' ∉ segment.toList) (rest : String) :
    split (segment ++ "::" ++ rest) = segment :: split rest := by
  have hchars : (segment ++ "::" ++ rest).toList = segment.toList ++ ':' :: ':' :: rest.toList := by
    simp
  rw [split, hchars, splitChars_append h, List.map_cons, String.ofList_toList]
  rfl

/-- A segment alone is not split. -/
theorem split_of_not_mem {segment : String} (h : ':' ∉ segment.toList) : split segment = [segment] := by
  rw [split, splitChars_of_not_mem h, List.map_singleton, String.ofList_toList]

/-- The first segment stands before the separator. -/
theorem join_cons (segment : String) {rest : List String} (h : rest ≠ []) :
    join (segment :: rest) = segment ++ "::" ++ join rest :=
  String.intercalate_cons_of_ne_nil h

theorem join_singleton (segment : String) : join [segment] = segment := String.intercalate_singleton

/-- The first segment is found again if it has no colon, whatever comes after it. -/
theorem split_join_cons {segment : String} (h : ':' ∉ segment.toList) (rest : List String) :
    ∃ more, split (join (segment :: rest)) = segment :: more := by
  by_cases hrest : rest = []
  · rw [hrest, join_singleton, split_of_not_mem h]
    exact ⟨[], rfl⟩
  · rw [join_cons segment hrest, split_append h]
    exact ⟨_, rfl⟩

/-- Segments without colons are found again. -/
theorem split_join {segments : List String} (hne : segments ≠ [])
    (h : ∀ segment ∈ segments, ':' ∉ segment.toList) : split (join segments) = segments := by
  induction segments with
  | nil => exact absurd rfl hne
  | cons segment rest ih =>
      have hfirst := h segment List.mem_cons_self
      by_cases hrest : rest = []
      · rw [hrest, join_singleton, split_of_not_mem hfirst]
      · rw [join_cons segment hrest, split_append hfirst,
          ih hrest fun other hother => h other (List.mem_cons_of_mem _ hother)]

/-- What is before and after a name without colons. -/
theorem cutLast?_append (before : String) {name : String} (h : ':' ∉ name.toList) :
    cutLast? (before ++ "::" ++ name) = some (before, name) := by
  have hchars : (before ++ "::" ++ name).toList = before.toList ++ ':' :: ':' :: name.toList := by
    simp
  rw [cutLast?, hchars, cutLastChars?_append h, Option.map_some]
  simp only [String.ofList_toList]

/-- The last segment stands behind the separator. -/
theorem join_concat {segments : List String} (h : segments ≠ []) (last : String) :
    join (segments ++ [last]) = join segments ++ "::" ++ last := by
  rw [join, String.intercalate_append_of_ne_nil h (List.cons_ne_nil _ _), String.intercalate_singleton]
  rfl

end PayloadSchema.Segments
