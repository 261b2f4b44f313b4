import PayloadSchema.Proofs.Dictionary
import PayloadSchema.Proofs.Files.Writing

/-!
# Proper file trees

A file tree is proper if each of its directories lists a name once at most, and only names that a path can
give (`FileTree.Proper`). The order of a listing is left open. In a proper tree an entry of a directory is what
its name leads to, and names below a path lead where they lead in the tree at the path.

* `FileTree.Proper.get?`, `Files.proper_of_find` — what lies in a proper tree is proper;
* `Files.toOption_find_foldl_below` — where names below a path lead.
-/

namespace PayloadSchema

/-! ## Ends of paths -/

namespace FilePath.IsName

variable {name : String}

/-- A path that ends in a name does not end in a text with a slash whose shorter ends are at most a dot. -/
theorem endsWith_below_eq_false (h : IsName name) (ending : String) (base : FilePath) (hslash : '/' ∈ ending.toList)
    (hinner : ∀ rest, rest ≠ [] → rest <:+ ending.toList → rest ≠ ending.toList → rest = ['.']) :
    (base.below name).text.endsWith ending = false := by
  obtain ⟨before, hbefore⟩ := base.below_text name
  have hsuffix : name.toList <:+ (base.below name).text.toList := by
    rw [hbefore, String.toList_append]
    exact List.suffix_append _ _
  rw [Bool.eq_false_iff]
  intro hending
  rw [String.endsWith, String.Slice.endsWith_string_iff, String.copy_toSlice] at hending
  -- Of two suffixes of one text one is a suffix of the other: the name would hold a slash or be a rest of
  -- the ending.
  rcases List.suffix_or_suffix_of_suffix hending hsuffix with hpart | hpart
  · exact h.not_slash (hpart.subset hslash)
  · by_cases heq : name.toList = ending.toList
    · exact h.not_slash (heq ▸ hslash)
    · have hempty : name.toList ≠ [] := fun hnil => h.ne_empty (String.toList_eq_nil_iff.1 hnil)
      exact h.not_current (String.toList_inj.1 (hinner _ hempty hpart heq))

/-- A path that ends in a name does not say that it is a directory. -/
theorem saysDirectory_below (h : IsName name) (base : FilePath) : (base.below name).saysDirectory = false := by
  unfold saysDirectory
  rw [h.endsWith_below_eq_false "/" base (by decide), h.endsWith_below_eq_false "/." base (by decide)]
  · rfl
  · intro rest hne hrest hother
    rcases List.suffix_cons_iff.1 hrest with heq | hrest
    · exact absurd heq hother
    · rcases List.suffix_cons_iff.1 hrest with heq | hrest
      · exact heq
      · exact absurd (List.suffix_nil.1 hrest) hne
  · intro rest hne hrest hother
    rcases List.suffix_cons_iff.1 hrest with heq | hrest
    · exact absurd heq hother
    · exact absurd (List.suffix_nil.1 hrest) hne

/-- A path below a base is never the empty text, since the name at its end is not. -/
theorem text_below_ne_empty (h : IsName name) (base : FilePath) : (base.below name).text ≠ "" := by
  obtain ⟨before, hbefore⟩ := base.below_text name
  intro hempty
  rw [hbefore, String.append_eq_empty_iff] at hempty
  exact h.ne_empty hempty.2

end FilePath.IsName

/-! ## Trees -/

namespace FileTree

/-- In each directory a name is listed once at most, and it is one that a path can give. -/
inductive Proper : FileTree → Prop where
  | file (content : FileContent) : Proper (.file content)
  | directory {entries : List (String × FileTree)} (hnodup : (Dictionary.keys entries).Nodup)
    (hnames : ∀ entry ∈ entries, FilePath.IsName entry.1) (hinner : ∀ entry ∈ entries, Proper entry.2) :
    Proper (.directory entries)

mutual
def isProper : FileTree → Bool
  | .file _ => true
  | .directory entries => decide (Dictionary.keys entries).Nodup && areProper entries
/-- Whether entries have names and are proper themselves. -/
def areProper : List (String × FileTree) → Bool
  | [] => true
  | (name, inner) :: entries => decide (FilePath.IsName name) && inner.isProper && areProper entries
end

mutual
/-- The check on a tree decides what it is named for. -/
theorem isProper_iff : ∀ t : FileTree, t.isProper = true ↔ t.Proper
  | .file content => ⟨fun _ => .file content, fun _ => by rw [isProper]⟩
  | .directory entries => by
    rw [isProper, Bool.and_eq_true, decide_eq_true_iff, areProper_iff entries]
    constructor
    · rintro ⟨hnodup, hentries⟩
      exact .directory hnodup (fun entry h => (hentries entry h).1) fun entry h => (hentries entry h).2
    · rintro (_ | ⟨hnodup, hnames, hinner⟩)
      exact ⟨hnodup, fun entry h => ⟨hnames entry h, hinner entry h⟩⟩
/-- The check on the entries of a directory looks at each name and at each tree. -/
theorem areProper_iff : ∀ entries : List (String × FileTree),
    areProper entries = true ↔ ∀ entry ∈ entries, FilePath.IsName entry.1 ∧ entry.2.Proper
  | [] => by simp [areProper]
  | (name, inner) :: entries => by
    rw [areProper, Bool.and_eq_true, Bool.and_eq_true, decide_eq_true_iff, isProper_iff inner, areProper_iff entries,
      List.forall_mem_cons]
end

instance (t : FileTree) : Decidable t.Proper := decidable_of_iff _ t.isProper_iff

namespace Proper

variable {t : FileTree} {names : List String}

/-- A proper directory has no two entries of one name. -/
theorem nodup_keys (h : t.Proper) : (Dictionary.keys t.entries).Nodup := by
  cases h with
  | file content => exact .nil
  | directory hnodup _ _ => exact hnodup

/-- The entries of a proper directory are named by names of files. -/
theorem isName {entry : String × FileTree} (h : t.Proper) (hentry : entry ∈ t.entries) :
    FilePath.IsName entry.1 := by
  cases h with
  | file content => cases hentry
  | directory _ hnames _ => exact hnames entry hentry

/-- What is in a proper directory is proper itself. -/
theorem inner {entry : String × FileTree} (h : t.Proper) (hentry : entry ∈ t.entries) : entry.2.Proper := by
  cases h with
  | file content => cases hentry
  | directory _ _ hinner => exact hinner entry hentry

/-- In a proper tree a way of names goes on from one of the entries. -/
theorem get?_cons_iff {name : String} {found : FileTree} (h : t.Proper) :
    t.get? (name :: names) = some found ↔ ∃ inner, (name, inner) ∈ t.entries ∧ inner.get? names = some found := by
  rw [get?_cons, Option.bind_eq_some_iff]
  exact exists_congr fun inner => and_congr_left' (Dictionary.mem_iff_of_nodup_keys h.nodup_keys).symm

/-- What lies in a proper tree is proper, and the way to it consists of names. -/
theorem get? {found : FileTree} (h : t.Proper) (hget : t.get? names = some found) :
    found.Proper ∧ ∀ name ∈ names, FilePath.IsName name := by
  induction names generalizing t with
  | nil =>
      rw [get?_nil] at hget
      exact ⟨Option.some.inj hget ▸ h, List.forall_mem_nil _⟩
  | cons name names ih =>
      obtain ⟨inner, hentry, hget⟩ := h.get?_cons_iff.1 hget
      obtain ⟨hfound, hnames⟩ := ih (h.inner hentry) hget
      exact ⟨hfound, List.forall_mem_cons.2 ⟨h.isName hentry, hnames⟩⟩

end Proper

end FileTree

/-! ## Paths -/

namespace Files

variable {files : Files} {path : FilePath} {t : FileTree} {names : List String}

/-- A path is walked part by part: what its first parts lead to is where the others start. -/
theorem reach_append (files : Files) (parts more : List FilePath.Part) :
    files.reach (parts ++ more) = files.reach parts >>= fun p => more.foldlM (fun p part => p.step files part) p := by
  unfold reach
  rw [bind_assoc]
  simp only [List.foldlM_append]

/-- What is found is where the parts of the path lead. -/
theorem reach_of_find (h : files.find path = .ok t) :
    path.text ≠ "" ∧ ∃ p, files.reach path.parts = .ok p ∧ p.here = t := by
  unfold find at h
  rw [place_eq] at h
  -- A file is not found where the path ends in a slash; everything else found was reached.
  split at h
  · cases h
  next htext =>
    refine ⟨htext, ?_⟩
    cases hreach : files.reach path.parts with
    | error e =>
        rw [hreach] at h
        cases h
    | ok p =>
        rw [hreach] at h
        change (fun p : Place => p.here) <$> (if path.saysDirectory && p.here.isFile
          then Except.error PathError.notDirectory else .ok p) = .ok t at h
        split at h
        · cases h
        · exact ⟨p, rfl, Except.ok.inj h⟩

/-- What is found in a proper tree is proper. -/
theorem proper_of_find (hproper : files.root.Proper) (h : files.find path = .ok t) : t.Proper := by
  obtain ⟨-, p, hreach, rfl⟩ := reach_of_find h
  have hsound : p.Sound files.root := (reach_of_keeps (fun _ _ h => ⟨_, h, rfl⟩) rfl hreach).1
  exact (hproper.get? hsound.get?_names).1

/-- One name after another leads down in the tree. -/
theorem Place.here_foldlM_child (names : List String) (p : Place) :
    (names.foldlM Place.child p).toOption.map (·.here) = p.here.get? names := by
  induction names generalizing p with
  | nil =>
      rw [List.foldlM_nil, FileTree.get?_nil]
      rfl
  | cons name names ih =>
      rw [List.foldlM_cons, FileTree.get?_cons]
      -- A step to a child succeeds exactly when the directory lists its name.
      cases hchild : p.child name with
      | ok q =>
          obtain ⟨entries, hhere, hfind, -⟩ := child_eq_ok hchild
          have hfind : Dictionary.find? p.here.entries name = some q.here := hhere ▸ hfind
          rw [hfind]
          exact ih q
      | error e =>
          have hfind : Dictionary.find? p.here.entries name = none := by
            unfold child at hchild
            obtain ⟨above, here⟩ := p
            cases here with
            | file content => rfl
            | directory entries =>
                dsimp only at hchild
                split at hchild
                · cases hchild
                next hnone => exact hnone
          rw [hfind]
          rfl

/-- Names below a path lead where they lead in the tree at the path. -/
theorem toOption_find_foldl_below (hroot : files.find path = .ok t) (hne : names ≠ [])
    (hnames : ∀ name ∈ names, FilePath.IsName name) :
    (files.find (names.foldl FilePath.below path)).toOption = t.get? names := by
  obtain ⟨-, p, hreach, rfl⟩ := reach_of_find hroot
  obtain ⟨above, last, rfl⟩ : ∃ above last, names = above ++ [last] :=
    ⟨_, _, (List.dropLast_append_getLast hne).symm⟩
  have hlast : FilePath.IsName last := hnames last (List.mem_append_right _ List.mem_cons_self)
  -- The parts of the path are those of the root followed by the names, so reaching it is walking on from
  -- the root.
  have hsteps : files.reach ((above ++ [last]).foldl FilePath.below path).parts =
      (above ++ [last]).foldlM Place.child p := by
    rw [FilePath.parts_foldl_below path hnames, reach_append, hreach]
    exact List.foldlM_map
  rw [← Place.here_foldlM_child]
  unfold find
  rw [place_eq, hsteps, List.foldl_append, List.foldl_cons, List.foldl_nil, if_neg (hlast.text_below_ne_empty _),
    hlast.saysDirectory_below]
  cases (above ++ [last]).foldlM Place.child p <;> rfl

end Files

end PayloadSchema
