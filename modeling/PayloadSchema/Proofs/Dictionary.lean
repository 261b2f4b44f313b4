import Mathlib.Data.List.Induction
import Mathlib.Data.List.Nodup
import Mathlib.Data.String.Basic
import Mathlib.Tactic.SplitIfs
import PayloadSchema.Dictionary

/-!
# Dictionaries in order

What is built by `insert` is in ascending order of its keys (`Ascending`), and a list that is in this order
already is the dictionary of its own entries (`ofList_of_ascending`). Of several entries with one key the last
one stays (`find?_ofList_iff`). A dictionary is known by what is found in it (`Ascending.ext`), so that it makes
no difference whether entries are put in one by one, or as a dictionary of their own (`insertAll_ofList`).
-/

namespace PayloadSchema.Dictionary

variable {α : Type}

/-- The keys ascend, so that no two are equal. -/
def Ascending (d : Dictionary α) : Prop := d.Pairwise fun a b => a.1 < b.1

theorem ascending_nil : Ascending ([] : Dictionary α) := .nil

/-- Keys that ascend are distinct. -/
theorem Ascending.nodup_keys {d : Dictionary α} (h : d.Ascending) : d.keys.Nodup :=
  List.Pairwise.map (fun e : String × α => e.1) (fun _ _ hlt => ne_of_lt hlt) h

/-- An entry is put in at its place. -/
theorem Ascending.insert {d : Dictionary α} (h : d.Ascending) (key : String) (value : α) :
    (d.insert key value).Ascending := by
  induction d with
  | nil => exact List.pairwise_singleton _ _
  | cons first rest ih =>
      obtain ⟨k, v⟩ := first
      obtain ⟨hfirst, hrest⟩ := List.pairwise_cons.1 h
      -- The new key replaces the first one, goes in front of it, or is inserted behind.
      by_cases hk : key = k
      · rw [Dictionary.insert, if_pos hk]
        subst hk
        exact List.pairwise_cons.2 ⟨hfirst, hrest⟩
      · by_cases hl : key < k
        · rw [Dictionary.insert, if_neg hk, if_pos hl]
          refine List.pairwise_cons.2 ⟨?_, h⟩
          intro e he
          rcases List.mem_cons.1 he with rfl | he
          · exact hl
          · exact String.lt_trans hl (hfirst e he)
        · rw [Dictionary.insert, if_neg hk, if_neg hl]
          refine List.pairwise_cons.2 ⟨?_, ih hrest⟩
          intro e he
          rcases mem_of_mem_insert he with rfl | he
          · exact lt_of_le_of_ne (String.not_lt.1 hl) (Ne.symm hk)
          · exact hfirst e he

/-- Entries are put in each at its place. -/
theorem Ascending.insertAll {d : Dictionary α} (h : d.Ascending) (entries : List (String × α)) :
    (d.insertAll entries).Ascending := by
  induction entries generalizing d with
  | nil => exact h
  | cons e entries ih => exact ih (h.insert e.1 e.2)

/-- In whatever order the entries come, the keys ascend. -/
theorem ascending_ofList (entries : List (String × α)) : (ofList entries).Ascending :=
  ascending_nil.insertAll entries

/-- A key beyond all others goes to the end. -/
theorem insert_of_forall_lt {d : Dictionary α} {key : String} (h : ∀ e ∈ d, e.1 < key) (value : α) :
    d.insert key value = d ++ [(key, value)] := by
  induction d with
  | nil => rfl
  | cons first rest ih =>
      obtain ⟨k, v⟩ := first
      have hlt : k < key := h (k, v) List.mem_cons_self
      have hne : key ≠ k := fun heq => String.lt_irrefl k (heq ▸ hlt)
      rw [insert, if_neg hne, if_neg (String.lt_asymm hlt), ih fun e he => h e (List.mem_cons_of_mem _ he)]
      rfl

/-- Entries in ascending order are a dictionary as they are. -/
theorem ofList_of_ascending {entries : Dictionary α} (h : entries.Ascending) : ofList entries = entries := by
  have happend (d rest : Dictionary α) (h : Ascending (d ++ rest)) : d.insertAll rest = d ++ rest := by
    induction rest generalizing d with
    | nil => rw [List.append_nil]; rfl
    | cons e rest ih =>
        have hlast : ∀ e' ∈ d, e'.1 < e.1 := fun e' he' =>
          (List.pairwise_append.1 h).2.2 e' he' e List.mem_cons_self
        have hstep : d.insertAll (e :: rest) = (d.insert e.1 e.2).insertAll rest := rfl
        rw [hstep, insert_of_forall_lt hlast, ih _ (by simpa using h), List.append_assoc]
        rfl
  exact happend [] entries h

/-! ## What is found -/

variable {d : Dictionary α} {entries : List (String × α)} {key : String} {value : α}

/-- Nothing is found for what is no key. -/
theorem find?_eq_none_iff : d.find? key = none ↔ key ∉ keys d := by
  induction d with
  | nil => simp [keys]
  | cons first rest ih =>
      rw [find?, keys, List.map_cons, List.mem_cons, not_or]
      split_ifs with hkey
      · simp [hkey]
      · rw [ih, keys]
        exact (and_iff_right (Ne.symm hkey)).symm

/-- If no key is there twice, the entries are what is found under their keys. -/
theorem mem_iff_of_nodup_keys (h : (keys d).Nodup) : (key, value) ∈ d ↔ d.find? key = some value := by
  induction d with
  | nil => simp [find?]
  | cons first rest ih =>
      obtain ⟨k, v⟩ := first
      obtain ⟨hfirst, hrest⟩ := List.nodup_cons.1 h
      rw [List.mem_cons, find?]
      -- The first entry of a key is its only one.
      by_cases hk : k = key
      · subst hk
        have hnot : (k, value) ∉ rest := fun hmem => hfirst (List.mem_map_of_mem (f := (·.1)) hmem)
        simp [hnot, eq_comm]
      · rw [if_neg hk, ← ih hrest]
        simp [Ne.symm hk]

/-- The entries of a dictionary are what is found under their keys. -/
theorem Ascending.mem_iff (h : d.Ascending) : (key, value) ∈ d ↔ d.find? key = some value :=
  mem_iff_of_nodup_keys h.nodup_keys

/-- The last entry of a key is the one that is found. -/
theorem find?_ofList_concat (entries : List (String × α)) (e : String × α) (key : String) :
    (ofList (entries ++ [e])).find? key = if key = e.1 then some e.2 else (ofList entries).find? key := by
  have hconcat : ofList (entries ++ [e]) = (ofList entries).insert e.1 e.2 := by
    unfold ofList insertAll
    rw [List.foldl_append]
    rfl
  rw [hconcat]
  split_ifs with hkey
  · rw [hkey, find?_insert_self]
  · exact find?_insert_of_ne _ _ hkey

/-- The last entry with a key is found. -/
theorem find?_ofList_iff : (ofList entries).find? key = some value ↔
    ∃ before after, entries = before ++ (key, value) :: after ∧ key ∉ keys after := by
  -- From the back, since a later entry takes the place of an earlier one.
  induction entries using List.reverseRecOn with
  | nil => simp [ofList, insertAll]
  | append_singleton entries e ih =>
      rw [find?_ofList_concat]
      constructor
      · intro h
        split_ifs at h with hkey
        · refine ⟨entries, [], ?_, List.not_mem_nil⟩
          rw [hkey, ← Option.some.inj h]
        · obtain ⟨before, after, rfl, hafter⟩ := ih.1 h
          refine ⟨before, after ++ [e], by simp, ?_⟩
          simpa [keys, hkey] using hafter
      · rintro ⟨before, after, hsplit, hafter⟩
        induction after using List.reverseRecOn with
        | nil =>
            obtain ⟨-, rfl⟩ := List.append_inj_right' hsplit rfl
            rw [if_pos rfl]
        | append_singleton after e' _ =>
            rw [← List.cons_append, ← List.append_assoc] at hsplit
            obtain ⟨rfl, hlast⟩ := List.append_inj' hsplit rfl
            obtain rfl : e = e' := List.singleton_inj.1 hlast
            simp only [keys, List.map_append, List.map_cons, List.map_nil, List.mem_append,
              List.mem_singleton, not_or] at hafter
            rw [if_neg hafter.2]
            exact ih.2 ⟨before, after, rfl, hafter.1⟩

/-- If no two entries have one key, each of them is found. -/
theorem find?_ofList_iff_mem (h : ∀ a ∈ entries, ∀ b ∈ entries, a.1 = b.1 → a = b) :
    (ofList entries).find? key = some value ↔ (key, value) ∈ entries := by
  constructor
  · intro hfind
    obtain ⟨before, after, rfl, -⟩ := find?_ofList_iff.1 hfind
    exact List.mem_append_right before List.mem_cons_self
  · intro hmem
    -- The key is held by some entry, and entries of one key are equal.
    have hkey : key ∈ keys (ofList entries) :=
      mem_keys_insertAll.2 (.inl (List.mem_map_of_mem (f := (·.1)) hmem))
    obtain ⟨found, hfind⟩ : ∃ found, (ofList entries).find? key = some found := by
      obtain ⟨⟨_, found⟩, hfound, rfl⟩ := List.mem_map.1 hkey
      exact ⟨found, (ascending_ofList entries).mem_iff.1 hfound⟩
    obtain ⟨before, after, hsplit, -⟩ := find?_ofList_iff.1 hfind
    have hfound : (key, found) ∈ entries := hsplit ▸ List.mem_append_right before List.mem_cons_self
    rw [hfind, (Prod.mk.inj (h _ hfound _ hmem rfl)).2]

/-- Entries no two of which have one key are those of their dictionary. -/
theorem mem_ofList_iff (hnodup : (keys entries).Nodup) {e : String × α} : e ∈ ofList entries ↔ e ∈ entries := by
  obtain ⟨key, value⟩ := e
  rw [(ascending_ofList entries).mem_iff, find?_ofList_iff_mem]
  exact fun a ha b hb hab => List.inj_on_of_nodup_map hnodup ha hb hab

/-! ## Entries that are put in together -/

theorem insertAll_append (d : Dictionary α) (entries more : List (String × α)) :
    d.insertAll (entries ++ more) = (d.insertAll entries).insertAll more :=
  List.foldl_append

/-- What is found after entries are put in is what they hold, or else what was there before. -/
theorem find?_insertAll (d : Dictionary α) (entries : List (String × α)) (key : String) :
    (d.insertAll entries).find? key = ((ofList entries).find? key).or (d.find? key) := by
  induction entries using List.reverseRecOn with
  | nil => rfl
  | append_singleton entries e ih =>
      have hlast : d.insertAll (entries ++ [e]) = (d.insertAll entries).insert e.1 e.2 :=
        insertAll_append d entries [e]
      rw [hlast, find?_ofList_concat]
      split_ifs with hkey
      · rw [hkey, find?_insert_self, Option.some_or]
      · rw [find?_insert_of_ne _ _ hkey, ih]

/-- Two dictionaries in which the same is found are the same. -/
theorem Ascending.ext {d' : Dictionary α} (h : d.Ascending) (h' : d'.Ascending)
    (hfind : ∀ key, d.find? key = d'.find? key) : d = d' := by
  have hmem : ∀ e, e ∈ d ↔ e ∈ d' := by
    rintro ⟨key, value⟩
    rw [h.mem_iff, h'.mem_iff, hfind key]
  have hnodup : d.Nodup := List.Nodup.of_map _ h.nodup_keys
  have hnodup' : d'.Nodup := List.Nodup.of_map _ h'.nodup_keys
  have hperm : d.Perm d' := (List.perm_ext_iff_of_nodup hnodup hnodup').2 hmem
  refine hperm.eq_of_pairwise ?_ h h'
  intro a b _ _ hlt hgt
  exact absurd hgt (String.lt_asymm hlt)

/-- Entries that are put in as a dictionary of their own are put in all the same. -/
theorem insertAll_ofList (h : d.Ascending) (entries : List (String × α)) :
    d.insertAll (ofList entries) = d.insertAll entries := by
  refine (h.insertAll _).ext (h.insertAll entries) ?_
  intro key
  rw [find?_insertAll, find?_insertAll, ofList_of_ascending (ascending_ofList entries)]

/-- If no two entries have one key, each is there after they are put in. -/
theorem mem_insertAll_of_nodup_keys (h : d.Ascending) (hnodup : (keys entries).Nodup) {e : String × α}
    (he : e ∈ entries) : e ∈ d.insertAll entries := by
  obtain ⟨key, value⟩ := e
  have hinj : ∀ a ∈ entries, ∀ b ∈ entries, a.1 = b.1 → a = b :=
    fun a ha b hb hab => List.inj_on_of_nodup_map hnodup ha hb hab
  rw [(h.insertAll entries).mem_iff, find?_insertAll, (find?_ofList_iff_mem hinj).2 he, Option.some_or]

end PayloadSchema.Dictionary
