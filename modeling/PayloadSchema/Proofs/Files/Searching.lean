import PayloadSchema.Files.Search
import PayloadSchema.Proofs.Files.Trees

/-!
# What a search finds

A search looks at whatever lies some levels below its root, except for what is hidden or built and all that is
below that. So what it finds is described by paths alone (`LiesNear`): a path is found if it comes from the root
by so many names at most, none of which is passed over.

* `Files.mem_below_iff`, `Files.nodup_parts_below` — what lies below a path, each entry once;
* `Files.searches_exact` — the directories, the files and the sources near a root.
-/

namespace PayloadSchema

/-! ## Extensions -/

namespace FilePath

/-- A dot at the start, and nowhere else, starts no extension. -/
theorem cutExtension_dot {after : List Char} (hafter : '.' ∉ after) :
    cutExtension ('.' :: after) = ('.' :: after, none) := by
  have htake : ('.' :: after).reverse.takeWhile (· ≠ '.') = after.reverse := by
    rw [List.reverse_cons, List.takeWhile_append_of_pos, List.takeWhile_cons]
    · simp
    · intro c hc
      apply decide_eq_true
      rintro rfl
      exact hafter (List.mem_reverse.1 hc)
  unfold cutExtension
  dsimp only
  rw [htake, List.reverse_reverse, List.length_cons, Nat.add_sub_cancel_left, Nat.sub_self, List.take_zero,
    if_pos (.inl rfl)]

/-- An extension is what follows the last dot of a name, with something before it. -/
theorem cutExtension_eq_some_iff {cs extension : List Char} :
    (cutExtension cs).2 = some extension ↔
      ∃ stem, stem ≠ [] ∧ '.' ∉ extension ∧ cs = stem ++ '.' :: extension := by
  constructor
  · intro h
    have hdot : '.' ∈ cs := by
      by_contra hnot
      simp [cutExtension, hnot] at h
    -- Split at the last dot: what follows holds none.
    obtain ⟨after, before, hreverse, hafter⟩ := List.eq_append_cons_of_mem (List.mem_reverse.2 hdot)
    have hcs : cs = before.reverse ++ '.' :: after.reverse := by
      rw [← List.reverse_reverse cs, hreverse]
      simp
    have hafter : '.' ∉ after.reverse := by rwa [List.mem_reverse]
    by_cases hstem : before.reverse = []
    · rw [hcs, hstem, List.nil_append, cutExtension_dot hafter] at h
      cases h
    · rw [hcs, cutExtension_append hstem hafter] at h
      rw [← Option.some.inj h]
      exact ⟨_, hstem, hafter, hcs⟩
  · rintro ⟨stem, hstem, hdot, rfl⟩
    rw [cutExtension_append hstem hdot]

/-- The extension of a path is that of its last name. -/
theorem extension?_below {name : String} (h : IsName name) (base : FilePath) :
    (base.below name).extension? = (cutExtension name.toList).2.map String.ofList := by
  have hname : (base.below name).name? = some name := by
    rw [name?, h.parts_below, List.getLast?_concat]
  unfold extension?
  rw [hname, Option.bind_eq_bind, Option.bind_some]
  cases (cutExtension name.toList).2 <;> rfl

end FilePath

namespace Files

variable {files : Files} {root path p : FilePath} {t : FileTree} {depth : Nat} {name : String} {found : Found}

/-! ## Below a path -/

/-- What lies below a path is what names lead to that are not passed over, so many at most. -/
theorem mem_below_iff (ht : t.Proper) : found ∈ below depth path t ↔
    ∃ above, above.length < depth ∧ (∀ step ∈ above ++ [found.name], isSkipped step = false) ∧
      found.path = (above ++ [found.name]).foldl FilePath.below path ∧
      t.get? (above ++ [found.name]) = some found.tree := by
  induction depth generalizing path t with
  | zero => simp [below]
  | succ depth ih =>
      rw [below, List.mem_flatMap]
      constructor
      · rintro ⟨⟨name, inner⟩, hentry, hfound⟩
        obtain ⟨hentry, hskip⟩ := List.mem_filter.1 hentry
        have hskip : isSkipped name = false := by simpa using hskip
        -- An entry is found at this level or below it, and the name on the way is one step of the path.
        rcases List.mem_cons.1 hfound with rfl | hfound
        · refine ⟨[], Nat.succ_pos _, by simpa using hskip, rfl, ?_⟩
          exact ht.get?_cons_iff.2 ⟨inner, hentry, FileTree.get?_nil inner⟩
        · obtain ⟨above, hlength, hsteps, hpath, hfound⟩ := (ih (ht.inner hentry)).1 hfound
          refine ⟨name :: above, Nat.succ_lt_succ hlength, List.forall_mem_cons.2 ⟨hskip, hsteps⟩, hpath, ?_⟩
          exact ht.get?_cons_iff.2 ⟨inner, hentry, hfound⟩
      · rintro ⟨above, hlength, hsteps, hpath, hfound⟩
        cases above with
        | nil =>
            obtain ⟨inner, hentry, hinner⟩ := ht.get?_cons_iff.1 hfound
            refine ⟨(found.name, inner), List.mem_filter.2 ⟨hentry, by simpa using hsteps⟩, ?_⟩
            rw [FileTree.get?_nil] at hinner
            obtain ⟨foundPath, foundName, foundTree⟩ := found
            obtain rfl : inner = foundTree := Option.some.inj hinner
            obtain rfl : foundPath = path.below foundName := hpath
            exact List.mem_cons_self
        | cons name above =>
            obtain ⟨inner, hentry, hfound⟩ := ht.get?_cons_iff.1 hfound
            obtain ⟨hskip, hsteps⟩ := List.forall_mem_cons.1 hsteps
            refine ⟨(name, inner), List.mem_filter.2 ⟨hentry, by simpa using hskip⟩, List.mem_cons_of_mem _ ?_⟩
            exact (ih (ht.inner hentry)).2 ⟨above, Nat.lt_of_succ_lt_succ hlength, hsteps, hpath, hfound⟩

/-- What is found below a path goes on from there by names. -/
theorem exists_parts_of_mem_below (ht : t.Proper) (h : found ∈ below depth path t) :
    ∃ first names, found.path.parts = path.parts ++ .name first :: names := by
  obtain ⟨above, -, -, hpath, hget⟩ := (mem_below_iff ht).1 h
  rw [hpath, FilePath.parts_foldl_below path (ht.get? hget).2]
  cases above with
  | nil => exact ⟨found.name, [], rfl⟩
  | cons first above => exact ⟨first, _, rfl⟩

/-- An entry, and what is found below it, goes on with the name of the entry. -/
theorem exists_parts_of_mem_entry {entry : String × FileTree} (ht : t.Proper) (hentry : entry ∈ t.entries)
    (h : found ∈ (⟨path.below entry.1, entry.1, entry.2⟩ : Found) :: below depth (path.below entry.1) entry.2) :
    ∃ rest, found.path.parts = path.parts ++ .name entry.1 :: rest := by
  have hparts := (ht.isName hentry).parts_below path
  rcases List.mem_cons.1 h with rfl | hfound
  · exact ⟨[], hparts⟩
  · obtain ⟨next, names, hfound⟩ := exists_parts_of_mem_below (ht.inner hentry) hfound
    refine ⟨.name next :: names, ?_⟩
    rw [hfound, hparts, List.append_assoc]
    rfl

/-- No path is found twice. -/
theorem nodup_parts_below (ht : t.Proper) (depth : Nat) (path : FilePath) :
    ((below depth path t).map (·.path.parts)).Nodup := by
  induction depth generalizing path t with
  | zero => exact .nil
  | succ depth ih =>
      rw [below, List.map_flatMap, List.nodup_flatMap]
      constructor
      · -- an entry is not found below itself
        rintro ⟨name, inner⟩ hentry
        have hinner := ht.inner (List.mem_filter.1 hentry).1
        rw [List.map_cons, List.nodup_cons]
        refine ⟨fun hmem => ?_, ih hinner _⟩
        obtain ⟨found, hfound, heq⟩ := List.mem_map.1 hmem
        obtain ⟨next, names, hparts⟩ := exists_parts_of_mem_below hinner hfound
        rw [hparts] at heq
        simp at heq
      · -- two entries have two names
        refine (List.Pairwise.filter _ (List.pairwise_map.1 ht.nodup_keys)).imp_of_mem ?_
        intro entry other hentry hother hne parts hparts hparts'
        obtain ⟨found, hfound, rfl⟩ := List.mem_map.1 hparts
        obtain ⟨found', hfound', heq⟩ := List.mem_map.1 hparts'
        obtain ⟨rest, hrest⟩ := exists_parts_of_mem_entry ht (List.mem_filter.1 hentry).1 hfound
        obtain ⟨rest', hrest'⟩ := exists_parts_of_mem_entry ht (List.mem_filter.1 hother).1 hfound'
        rw [hrest, hrest'] at heq
        have hcons := List.append_cancel_left heq
        injection hcons with hname
        injection hname with hname
        exact hne hname.symm

/-! ## Near a root -/

/-- A path with a name at its end that comes from a root by so many names at most, none of which starts with a
dot or is `target`. -/
def LiesNear (root : FilePath) (depth : Nat) (name : String) (p : FilePath) : Prop :=
  ∃ above : List String, above.length < depth ∧ p = (above ++ [name]).foldl FilePath.below root ∧
    ∀ step ∈ above ++ [name], FilePath.IsName step ∧ step.startsWith "." = false ∧ step ≠ "target"

/-- Hidden directories and that of the compiler's output are passed over. -/
theorem isSkipped_eq_false_iff : isSkipped name = false ↔ name.startsWith "." = false ∧ name ≠ "target" := by
  rw [isSkipped, Bool.or_eq_false_iff, beq_eq_false_iff_ne]

/-- What a search comes across is what is found at the paths near its root. -/
theorem exists_mem_below_iff (hproper : files.root.Proper) (hroot : files.find root = .ok t)
    {P : FileTree → Prop} :
    (∃ found ∈ below depth root t, found.name = name ∧ found.path = p ∧ P found.tree) ↔
      LiesNear root depth name p ∧ ∃ inner, files.find p = .ok inner ∧ P inner := by
  have ht : t.Proper := proper_of_find hproper hroot
  -- The steps of a walk are proper names, so walking the tree is following the path.
  have hfind {names : List String} {inner : FileTree} (hne : names ≠ [])
      (hnames : ∀ step ∈ names, FilePath.IsName step) :
      files.find (names.foldl FilePath.below root) = .ok inner ↔ t.get? names = some inner := by
    rw [← toOption_find_foldl_below hroot hne hnames]
    cases files.find (names.foldl FilePath.below root) <;> simp [Except.toOption]
  constructor
  · rintro ⟨found, hfound, rfl, rfl, hP⟩
    obtain ⟨above, hlength, hsteps, hpath, hget⟩ := (mem_below_iff ht).1 hfound
    have hnames := (ht.get? hget).2
    refine ⟨⟨above, hlength, hpath, ?_⟩, found.tree, ?_, hP⟩
    · intro step hstep
      exact ⟨hnames step hstep, isSkipped_eq_false_iff.1 (hsteps step hstep)⟩
    · rw [hpath]
      exact (hfind (by simp) hnames).2 hget
  · rintro ⟨⟨above, hlength, rfl, hsteps⟩, inner, hinner, hP⟩
    have hnames : ∀ step ∈ above ++ [name], FilePath.IsName step := by
      intro step hstep
      exact (hsteps step hstep).1
    have hvisited : ∀ step ∈ above ++ [name], isSkipped step = false := by
      intro step hstep
      exact isSkipped_eq_false_iff.2 (hsteps step hstep).2
    have hget : t.get? (above ++ [name]) = some inner := (hfind (by simp) hnames).1 hinner
    refine ⟨⟨_, name, inner⟩, ?_, rfl, rfl, hP⟩
    exact (mem_below_iff ht).2 ⟨above, hlength, hvisited, rfl, hget⟩

/-- A file is what is found and is one. -/
theorem isFile_iff : files.isFile p = true ↔ ∃ inner, files.find p = .ok inner ∧ inner.isFile = true := by
  unfold isFile
  cases files.find p <;> simp

/-- A directory is what is found and is one. -/
theorem isDirectory_iff :
    files.isDirectory p = true ↔ ∃ inner, files.find p = .ok inner ∧ inner.isDirectory = true := by
  unfold isDirectory
  cases files.find p <;> simp

/-- Near a root is the root, and what lies below it. -/
theorem near_of_find (hroot : files.find root = .ok t) (depth : Nat) :
    files.near root depth = ⟨root, root.name?.getD root.text, t⟩ :: below depth root t := by
  rw [near, searchRoot?, hroot]

/-- Near a root that is not found there is nothing. -/
theorem near_of_error {e : PathError} (hroot : files.find root = .error e) (depth : Nat) :
    files.near root depth = [] := by
  rw [near, searchRoot?, hroot]

/-- The directories that are found by a name are those near the root that have it. -/
theorem mem_directoriesNamed_iff (hproper : files.root.Proper) (hroot : files.find root = .ok t) :
    p ∈ files.directoriesNamed root name ↔ LiesNear root searchDepth name p ∧ files.isDirectory p = true := by
  rw [isDirectory_iff, ← exists_mem_below_iff hproper hroot, directoriesNamed, near_of_find hroot]
  simp [and_left_comm, and_comm, and_assoc]

/-- The files that are found by a name are those near the root that have it. -/
theorem mem_filesNamed_iff (hproper : files.root.Proper) (hroot : files.find root = .ok t)
    (hdirectory : t.isFile = false) :
    p ∈ files.filesNamed root name ↔ LiesNear root searchDepth name p ∧ files.isFile p = true := by
  rw [isFile_iff, ← exists_mem_below_iff hproper hroot, filesNamed, near_of_find hroot]
  simp [hdirectory, and_left_comm, and_comm, and_assoc]

/-- A source has a name before its extension. -/
theorem LiesNear.extension?_eq_rs_iff (h : LiesNear root depth name p) :
    p.extension? = some "rs" ↔ ∃ stem, name = stem ++ ".rs" := by
  obtain ⟨above, -, rfl, hsteps⟩ := h
  obtain ⟨hname, hdot, -⟩ := hsteps name (by simp)
  rw [List.foldl_append, List.foldl_cons, List.foldl_nil, FilePath.extension?_below hname, Option.map_eq_some_iff]
  constructor
  · rintro ⟨extension, hextension, hrs⟩
    obtain ⟨stem, -, -, hcs⟩ := FilePath.cutExtension_eq_some_iff.1 hextension
    refine ⟨String.ofList stem, String.toList_inj.1 ?_⟩
    rw [hcs, String.toList_append, String.toList_ofList, show ".rs".toList = '.' :: "rs".toList from rfl, ← hrs,
      String.toList_ofList]
  · rintro ⟨stem, rfl⟩
    refine ⟨"rs".toList, FilePath.cutExtension_eq_some_iff.2 ⟨stem.toList, ?_, by decide, ?_⟩, rfl⟩
    · -- a name that is nothing but its extension starts with a dot
      intro hempty
      have hstarts : (stem ++ ".rs").startsWith "." = true :=
        String.startsWith_string_iff.2 ⟨"rs".toList, by rw [String.toList_append, hempty]; rfl⟩
      rw [hstarts] at hdot
      cases hdot
    · rw [String.toList_append]
      rfl

/-- There are sources if and only if a file near the root ends in the extension. -/
theorem hasSources_iff (hproper : files.root.Proper) (hroot : files.find root = .ok t)
    (hdirectory : t.isFile = false) :
    files.hasSources root = true ↔
      ∃ stem p, LiesNear root (searchDepth + 1) (stem ++ ".rs") p ∧ files.isFile p = true := by
  -- The root is a directory and so not itself a source.
  have hsearch : files.hasSources root = true ↔ ∃ found ∈ below probeDepth root t,
      found.tree.isFile = true ∧ found.path.extension? = some "rs" := by
    rw [hasSources, near_of_find hroot, List.any_cons, hdirectory]
    simp
  rw [hsearch]
  constructor
  · rintro ⟨found, hfound, hfile, hextension⟩
    obtain ⟨hnear, hfile⟩ := (exists_mem_below_iff (P := (·.isFile = true)) hproper hroot).1
      ⟨found, hfound, rfl, rfl, hfile⟩
    obtain ⟨stem, hstem⟩ := hnear.extension?_eq_rs_iff.1 hextension
    exact ⟨stem, found.path, hstem ▸ hnear, isFile_iff.2 hfile⟩
  · rintro ⟨stem, p, hnear, hfile⟩
    obtain ⟨found, hfound, -, rfl, htree⟩ := (exists_mem_below_iff hproper hroot).2 ⟨hnear, isFile_iff.1 hfile⟩
    exact ⟨found, hfound, htree, hnear.extension?_eq_rs_iff.2 ⟨stem, rfl⟩⟩

/-- **Searches are exact.** In a proper file tree a search from a directory finds, each once, just the
directories of a name that lie a few levels below, and just the files of a name; and it finds a source if and
only if a file whose name ends in `.rs` lies one level deeper at most. Nothing counts that is hidden, or built,
or below that, but the root may have any name. From a root that is missing nothing is found. -/
theorem searches_exact (files : Files) (hproper : files.root.Proper) (root : FilePath) :
    (files.isDirectory root = true →
      (∀ name, ((files.directoriesNamed root name).map (·.parts)).Nodup ∧
        ∀ p, p ∈ files.directoriesNamed root name ↔
          LiesNear root searchDepth name p ∧ files.isDirectory p = true) ∧
      (∀ name, ((files.filesNamed root name).map (·.parts)).Nodup ∧
        ∀ p, p ∈ files.filesNamed root name ↔ LiesNear root searchDepth name p ∧ files.isFile p = true) ∧
      (files.hasSources root = true ↔
        ∃ stem p, LiesNear root (searchDepth + 1) (stem ++ ".rs") p ∧ files.isFile p = true)) ∧
    (files.isThere root = false →
      (∀ name, files.directoriesNamed root name = [] ∧ files.filesNamed root name = []) ∧
        files.hasSources root = false) := by
  constructor
  · intro hthere
    obtain ⟨t, hroot, hdirectory⟩ := isDirectory_iff.1 hthere
    have hdirectory : t.isFile = false := by simpa [FileTree.isDirectory] using hdirectory
    -- The walk meets no path twice, and each search filters it.
    have hnodup := nodup_parts_below (proper_of_find hproper hroot) searchDepth root
    refine ⟨?_, ?_, hasSources_iff hproper hroot hdirectory⟩
    · intro name
      refine ⟨?_, fun p => mem_directoriesNamed_iff hproper hroot⟩
      rw [directoriesNamed, near_of_find hroot, List.map_map]
      exact hnodup.sublist (List.filter_sublist.map _)
    · intro name
      refine ⟨?_, fun p => mem_filesNamed_iff hproper hroot hdirectory⟩
      rw [filesNamed, near_of_find hroot, List.filter_cons_of_neg (by simp [hdirectory]), List.map_map]
      exact hnodup.sublist (List.filter_sublist.map _)
  · intro hmissing
    -- Nothing is listed under a root that is not there.
    obtain ⟨e, hroot⟩ : ∃ e, files.find root = .error e := by
      unfold isThere at hmissing
      cases hfind : files.find root with
      | ok t =>
          rw [hfind] at hmissing
          cases hmissing
      | error e => exact ⟨e, rfl⟩
    unfold directoriesNamed filesNamed hasSources
    rw [near_of_error hroot, near_of_error hroot]
    exact ⟨fun name => ⟨rfl, rfl⟩, rfl⟩

/-! ## A project with services -/

/-- A project in which models lie in several directories, some of them hidden, built or too deep. -/
def services : Files where
  root := .directory [("proj", .directory [
    (".cache", .directory [("models", .directory [])]),
    ("api", .directory [("v1", .directory [("models", .directory [("user.rs", .ofText "struct User;")])])]),
    ("target", .directory [("models", .directory [])]),
    ("web", .directory [("src", .directory [("old", .directory [("models", .directory [])])])])])]
  start := []

/-- Of all these models one directory is found. -/
theorem searches_exact_services :
    services.root.Proper ∧ services.isDirectory ⟨"proj"⟩ = true ∧
      services.directoriesNamed ⟨"proj"⟩ "models" = [⟨"proj/api/v1/models"⟩] ∧
        services.filesNamed ⟨"proj"⟩ "user.rs" = [] ∧ services.hasSources ⟨"proj"⟩ = true ∧
          ∀ p, p ∈ services.directoriesNamed ⟨"proj"⟩ "models" ↔
            LiesNear ⟨"proj"⟩ searchDepth "models" p ∧ services.isDirectory p = true := by
  have hproper : services.root.Proper := by decide +kernel
  have hroot : services.isDirectory ⟨"proj"⟩ = true := by decide +kernel
  refine ⟨hproper, hroot, by decide +kernel, by decide +kernel, by decide +kernel, ?_⟩
  obtain ⟨hdirectories, -, -⟩ := (searches_exact services hproper ⟨"proj"⟩).1 hroot
  exact (hdirectories "models").2

end Files

end PayloadSchema
