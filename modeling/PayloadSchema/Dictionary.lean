/-!
# Dictionaries

A dictionary is a list of pairs in ascending order of their keys, each key once. Text is ordered by code
point. `insert` keeps the order and puts the new value in the place of an old one; `find?` looks a key up.
-/

namespace PayloadSchema

/-- Pairs in ascending order of keys, each key once. -/
abbrev Dictionary (α : Type) := List (String × α)

namespace Dictionary

variable {α : Type}

def find? : Dictionary α → String → Option α
  | [], _ => none
  | (k, v) :: rest, key => if k = key then some v else find? rest key

/-- Whether a key is there. -/
def contains (d : Dictionary α) (key : String) : Bool := (d.find? key).isSome

/-- The dictionary with a value under a key, in the place of any old one. -/
def insert : Dictionary α → String → α → Dictionary α
  | [], key, value => [(key, value)]
  | (k, v) :: rest, key, value =>
    if key = k then (key, value) :: rest
    else if key < k then (key, value) :: (k, v) :: rest
    else (k, v) :: insert rest key value

/-- The dictionary without a key. -/
def erase (d : Dictionary α) (key : String) : Dictionary α := d.filter fun entry => entry.1 != key

/-- One dictionary with the entries of a list put in, in the order of the list. -/
def insertAll (d : Dictionary α) (entries : List (String × α)) : Dictionary α :=
  entries.foldl (fun d entry => d.insert entry.1 entry.2) d

/-- The dictionary of a list of pairs; of two with one key the later stays. -/
def ofList (entries : List (String × α)) : Dictionary α := insertAll [] entries

def keys (d : Dictionary α) : List String := d.map (·.1)

/-- The values in the order of their keys. -/
def values (d : Dictionary α) : List α := d.map (·.2)

@[simp] theorem find?_nil (key : String) : find? ([] : Dictionary α) key = none := rfl

/-- What was inserted is found. -/
@[simp] theorem find?_insert_self (d : Dictionary α) (key : String) (value : α) :
    (d.insert key value).find? key = some value := by
  induction d with
  | nil => simp [insert, find?]
  | cons entry rest ih =>
    obtain ⟨k, v⟩ := entry
    by_cases h : key = k
    · simp [insert, find?, h]
    · by_cases hl : key < k
      · simp [insert, find?, h, hl]
      · have h' : ¬ k = key := fun e => h e.symm
        simp [insert, find?, h, hl, h', ih]

/-- Nothing else is touched. -/
theorem find?_insert_of_ne (d : Dictionary α) {key other : String} (value : α) (h : other ≠ key) :
    (d.insert key value).find? other = d.find? other := by
  induction d with
  | nil => simp [insert, find?, h.symm]
  | cons entry rest ih =>
    obtain ⟨k, v⟩ := entry
    by_cases hk : key = k
    · subst hk
      simp [insert, find?, h.symm]
    · by_cases hl : key < k
      · simp [insert, find?, hk, hl, h.symm]
      · simp [insert, find?, hk, hl, ih]

/-- An entry is the one that was inserted or an old one. -/
theorem mem_of_mem_insert {d : Dictionary α} {key : String} {value : α} {entry : String × α}
    (h : entry ∈ d.insert key value) : entry = (key, value) ∨ entry ∈ d := by
  induction d with
  | nil => exact .inl (List.mem_singleton.1 h)
  | cons first rest ih =>
    obtain ⟨k, v⟩ := first
    by_cases hk : key = k
    · rw [insert, if_pos hk] at h
      exact (List.mem_cons.1 h).imp_right (List.mem_cons_of_mem _)
    · by_cases hl : key < k
      · rw [insert, if_neg hk, if_pos hl] at h
        exact List.mem_cons.1 h
      · rw [insert, if_neg hk, if_neg hl] at h
        rcases List.mem_cons.1 h with h | h
        · exact .inr (List.mem_cons.2 (.inl h))
        · exact (ih h).imp_right (List.mem_cons_of_mem _)

/-- The keys are those of before and the one that was inserted. -/
theorem mem_keys_insert {d : Dictionary α} {key name : String} {value : α} :
    name ∈ (d.insert key value).keys ↔ name = key ∨ name ∈ d.keys := by
  induction d with
  | nil => simp [insert, keys]
  | cons first rest ih =>
    obtain ⟨k, v⟩ := first
    by_cases hk : key = k
    · simp [insert, keys, hk]
    · by_cases hl : key < k
      · simp [insert, keys, hk, hl]
      · have hrest : name ∈ (insert ((k, v) :: rest) key value).keys ↔
            name = k ∨ name ∈ (insert rest key value).keys := by
          simp [insert, keys, hk, hl]
        rw [hrest, ih, or_left_comm]
        simp [keys]

/-- An entry is one that was put in or an old one. -/
theorem mem_of_mem_insertAll {d : Dictionary α} {entries : List (String × α)} {entry : String × α}
    (h : entry ∈ d.insertAll entries) : entry ∈ entries ∨ entry ∈ d := by
  induction entries generalizing d with
  | nil => exact .inr h
  | cons first rest ih =>
    rcases ih h with h | h
    · exact .inl (List.mem_cons_of_mem _ h)
    · exact (mem_of_mem_insert h).imp_left fun he => List.mem_cons.2 (.inl he)

/-- The keys are those that were put in and those of before. -/
theorem mem_keys_insertAll {d : Dictionary α} {entries : List (String × α)} {name : String} :
    name ∈ (d.insertAll entries).keys ↔ name ∈ keys entries ∨ name ∈ d.keys := by
  induction entries generalizing d with
  | nil => simp [insertAll, keys]
  | cons first rest ih =>
    have hstep : d.insertAll (first :: rest) = (d.insert first.1 first.2).insertAll rest := rfl
    have hkeys : name ∈ keys (first :: rest) ↔ name = first.1 ∨ name ∈ keys rest := by
      simp [keys]
    rw [hstep, ih, mem_keys_insert, hkeys, or_left_comm, or_assoc]

end Dictionary

end PayloadSchema
