import Mathlib.Data.List.Nodup
import PayloadSchema.Document

/-!
# Reading records

A record whose members are known, and each there once, is put together member by member
(`record?_eq_foldlM`). What holds of the record at the start, and is kept when a member is put in, holds of
every record that is read (`record?_invariant`, `tuple?_invariant`).
-/

namespace PayloadSchema.Document

variable {τ α : Type} {known : List String} {put : String → τ → α → Option α}

/-- Members that are known, each once, are put in one after another. -/
theorem record?_go_eq_foldlM {seen : List String} {members : List (String × τ)} (record : α)
    (hknown : ∀ m ∈ members, m.1 ∈ known) (hseen : ∀ m ∈ members, m.1 ∉ seen)
    (hnodup : (members.map (·.1)).Nodup) :
    record?.go known put seen record (members.map fun m => (some m.1, m.2)) =
      members.foldlM (fun record m => put m.1 m.2 record) record := by
  induction members generalizing seen record with
  | nil => rfl
  | cons m members ih =>
      obtain ⟨hmknown, hknown⟩ := List.forall_mem_cons.1 hknown
      obtain ⟨hmseen, hseen⟩ := List.forall_mem_cons.1 hseen
      obtain ⟨hfirst, hnodup⟩ := List.nodup_cons.1 hnodup
      -- The member is known and not seen before, so it is put.
      rw [List.map_cons, record?.go, if_pos hmknown, if_neg hmseen, List.foldlM_cons]
      refine bind_congr fun record => ih record hknown ?_ hnodup
      intro m' hm'
      rw [List.mem_cons, not_or]
      exact ⟨fun heq => hfirst (List.mem_map.2 ⟨m', hm', heq⟩), hseen m' hm'⟩

/-- A record whose members stand in the order of the known names is put together member by member. -/
theorem record?_eq_foldlM {members : List (String × τ)} (start : α) (hknown : known.Nodup)
    (horder : (members.map (·.1)).Sublist known) :
    record? known put start (members.map fun m => (some m.1, m.2)) =
      members.foldlM (fun record m => put m.1 m.2 record) start :=
  record?_go_eq_foldlM start (fun _ hm => horder.subset (List.mem_map_of_mem hm)) (fun _ _ => List.not_mem_nil)
    (horder.nodup hknown)

section

variable {P : α → Prop}
  (hput : ∀ name t record record', put name t record = some record' → P record → P record')

include hput

theorem record?_go_invariant {seen : List String} {members : List (Option String × τ)} {record record' : α}
    (h : record?.go known put seen record members = some record') (hP : P record) : P record' := by
  induction members generalizing seen record with
  | nil =>
      cases h
      exact hP
  | cons m members ih =>
      obtain ⟨name, t⟩ := m
      cases name with
      | none => cases h
      | some name =>
          rw [record?.go] at h
          -- An unknown member is passed over, a repeated one fails.
          split at h
          · split at h
            · cases h
            · obtain ⟨next, hnext, h⟩ := Option.bind_eq_some_iff.1 h
              exact ih h (hput name t record next hnext hP)
          · exact ih h hP

/-- What every member keeps holds of a record that is read. -/
theorem record?_invariant {start record : α} {members : List (Option String × τ)}
    (h : record? known put start members = some record) (hstart : P start) : P record :=
  record?_go_invariant hput h hstart

/-- What every part keeps holds of a record that is read from a list. -/
theorem tuple?_invariant {start record : α} {least : Nat} {elements : List τ}
    (h : tuple? known least put start elements = some record) (hstart : P start) : P record := by
  -- Elements are put one after the other, in the order of the known names.
  have hfold {parts : List (String × τ)} {start : α}
      (h : parts.foldlM (fun record part => put part.1 part.2 record) start = some record) (hstart : P start) :
      P record := by
    induction parts generalizing start with
    | nil =>
        cases h
        exact hstart
    | cons part parts ih =>
        obtain ⟨next, hnext, h⟩ := Option.bind_eq_some_iff.1 h
        exact ih h (hput part.1 part.2 start next hnext hstart)
  rw [tuple?] at h
  split at h
  · cases h
  · exact hfold h hstart

end

end PayloadSchema.Document
