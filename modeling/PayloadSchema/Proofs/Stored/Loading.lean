import PayloadSchema.Proofs.Files.Trees
import PayloadSchema.Stored.Store

/-!
# Loading a store

A store is what the schema files of a directory say, whatever else lies there. For each handler it holds the
content of one file, the last in the order of paths that can be read as a file of the handler (`Wins`). So
nothing changes in the store if files come, go or change that do not win, nor if the directory is listed in
another order.

* `FilePath.precedes_below_iff` — the order of paths is that of names in one directory;
* `SchemaStore.get?_ofEntries_iff` — the file of a handler is the last one that names it;
* `SchemaStore.ofDirectory_exact` — the store of a directory.
-/

namespace PayloadSchema

/-! ## The order of paths -/

namespace FilePath

/-- Where a part stands in the order of paths: the root, a dot at the start, the directory above, names. -/
def Part.rank : Part → Nat
  | .root => 0
  | .current => 1
  | .parent => 2
  | .name _ => 3

/-- Names are ordered by their text, other parts by their kind. -/
inductive Part.Precedes : Part → Part → Prop where
  | kind {a b : Part} (h : a.rank < b.rank) : Precedes a b
  | name {a b : String} (h : a < b) : Precedes (.name a) (.name b)

/-- Paths are ordered by their parts, one after the other. -/
def Precedes (p q : FilePath) : Prop := List.Lex Part.Precedes p.parts q.parts

/-- No part comes before itself. -/
theorem Part.not_precedes_self (a : Part) : ¬ a.Precedes a := by
  rintro (h | h)
  · exact Nat.lt_irrefl _ h
  · exact String.lt_irrefl _ h

/-- Names come in the order of their texts. -/
theorem Part.precedes_name_iff {a b : String} : (Part.name a).Precedes (.name b) ↔ a < b := by
  constructor
  · rintro (h | h)
    · exact absurd h (Nat.lt_irrefl _)
    · exact h
  · exact .name

/-- In one directory the order of paths is that of names. -/
theorem precedes_below_iff {directory : FilePath} {a b : String} (ha : IsName a) (hb : IsName b) :
    (directory.below a).Precedes (directory.below b) ↔ a < b := by
  have hlex (before : List Part) (a b : Part) :
      List.Lex Part.Precedes (before ++ [a]) (before ++ [b]) ↔ a.Precedes b := by
    -- the directory is the same, so the parts of it decide nothing
    induction before with
    | nil =>
        refine ⟨?_, .rel⟩
        intro h
        cases h with
        | rel h => exact h
        | cons h => cases h
    | cons first before ih =>
        rw [List.cons_append, List.cons_append, ← ih]
        refine ⟨?_, .cons⟩
        intro h
        cases h with
        | rel h => exact absurd h first.not_precedes_self
        | cons h => exact h
  rw [Precedes, ha.parts_below, hb.parts_below, hlex, Part.precedes_name_iff]

end FilePath

/-! ## Schema files -/

/-- The extensions of the files of a format. -/
inductive Format.HasExtension : Format → String → Prop where
  | json : HasExtension .json "json"
  | yaml : HasExtension .yaml "yaml"
  | yml : HasExtension .yaml "yml"

/-- The format of a file is decided by the extension of its path. -/
theorem Format.ofPath?_eq_some_iff {path : FilePath} {format : Format} :
    Format.ofPath? path = some format ↔
      ∃ extension, path.extension? = some extension ∧ format.HasExtension extension := by
  unfold Format.ofPath?
  constructor
  · intro h
    split at h
    next hextension => exact Option.some.inj h ▸ ⟨_, hextension, .json⟩
    next hextension => exact Option.some.inj h ▸ ⟨_, hextension, .yaml⟩
    next hextension => exact Option.some.inj h ▸ ⟨_, hextension, .yml⟩
    · cases h
  · rintro ⟨extension, hextension, hformat⟩
    rw [hextension]
    cases hformat <;> rfl

/-- A text is read as a file of schemas if it decodes as one of the known version. -/
theorem SchemaFile.ofText_eq_ok_iff {format : Format} {text : String} {file : SchemaFile} :
    SchemaFile.ofText format text = .ok file ↔
      format.read? (fun doc => SchemaFile.decode? doc) text = some file ∧ file.version = 1 := by
  unfold SchemaFile.ofText
  -- A file of another version is refused after it was read.
  split
  next hnone => simp [hnone]
  next read hsome =>
    rw [hsome, Option.some_inj]
    split
    next hversion =>
      rw [Except.ok.injEq]
      constructor
      · rintro rfl
        exact ⟨rfl, hversion⟩
      · rintro ⟨h, -⟩
        exact h
    next hversion =>
      constructor
      · intro h
        cases h
      · rintro ⟨rfl, h⟩
        exact absurd h hversion

namespace SchemaStore

/-- An entry of a directory is a regular file, its extension says a format, and its text, if it is text, can be
read in this format as a schema file of version 1. -/
inductive Holds (directory : FilePath) (file : SchemaFile) : String × FileTree → Prop where
  | intro {name extension text : String} {content : FileContent} {format : Format}
    (hextension : (directory.below name).extension? = some extension) (hformat : format.HasExtension extension)
    (htext : content.text = some text) (hread : format.read? (fun doc => SchemaFile.decode? doc) text = some file)
    (hversion : file.version = 1) : Holds directory file (name, .file content)

/-- An entry holds a schema file, and among those that hold one of the same handler its path is the greatest. -/
structure Wins (directory : FilePath) (entries : List (String × FileTree)) (entry : String × FileTree)
    (file : SchemaFile) : Prop where
  mem : entry ∈ entries
  holds : Holds directory file entry
  greatest : ∀ other ∈ entries, ∀ file', Holds directory file' other → file'.handlerName = file.handlerName →
    other = entry ∨ (directory.below other.1).Precedes (directory.below entry.1)

variable {directory : FilePath} {entries entries' : List (String × FileTree)} {entry : String × FileTree}
  {name : String} {file : SchemaFile}

/-- An entry of a directory gives a file of schemas if and only if it holds one. -/
theorem fileIn?_eq_some_iff : fileIn? directory entry = some file ↔ Holds directory file entry := by
  obtain ⟨name, tree⟩ := entry
  constructor
  · intro h
    unfold fileIn? at h
    split at h
    next content format htree hformat =>
      obtain rfl : tree = .file content := htree
      -- A file counts when its extension names a format and its text reads in that format.
      obtain ⟨extension, hextension, hformat⟩ := Format.ofPath?_eq_some_iff.1 hformat
      obtain ⟨result, hresult, hfile⟩ := Option.bind_eq_some_iff.1 h
      obtain ⟨text, htext, rfl⟩ := Option.map_eq_some_iff.1 hresult
      have hread : SchemaFile.ofText format text = .ok file := by
        cases hok : SchemaFile.ofText format text with
        | error e =>
            rw [hok] at hfile
            cases hfile
        | ok read =>
            rw [hok] at hfile
            rw [Option.some.inj hfile]
      obtain ⟨hread, hversion⟩ := SchemaFile.ofText_eq_ok_iff.1 hread
      exact .intro hextension hformat htext hread hversion
    · cases h
  · rintro ⟨hextension, hformat, htext, hread, hversion⟩
    have hpath := Format.ofPath?_eq_some_iff.2 ⟨_, hextension, hformat⟩
    have hok := SchemaFile.ofText_eq_ok_iff.2 ⟨hread, hversion⟩
    simp [fileIn?, hpath, htext, hok, Except.toOption]

/-! ## What is kept of a directory -/

/-- The last of the files of one handler counts, in the order of the entries by name. -/
theorem ofEntries_files (directory : FilePath) (entries : List (String × FileTree)) :
    (ofEntries directory entries).files = Dictionary.ofList
      (((Dictionary.ofList entries).filterMap (fileIn? directory)).map fun f => (f.handlerName, f)) := by
  have hinsert (files : List SchemaFile) (store : SchemaStore) :
      (files.foldl insert store).files = store.files.insertAll (files.map fun f => (f.handlerName, f)) := by
    induction files generalizing store with
    | nil => rfl
    | cons f files ih => exact ih (store.insert f)
  exact hinsert _ {}

/-- The names of the files of entries. -/
theorem mem_keys_filterMap_iff :
    name ∈ Dictionary.keys ((entries.filterMap (fileIn? directory)).map fun f => (f.handlerName, f)) ↔
      ∃ entry ∈ entries, ∃ file, Holds directory file entry ∧ file.handlerName = name := by
  simp only [Dictionary.keys, List.map_map, List.mem_map, List.mem_filterMap, fileIn?_eq_some_iff]
  constructor
  · rintro ⟨file, ⟨entry, hentry, hholds⟩, hname⟩
    exact ⟨entry, hentry, file, hholds, hname⟩
  · rintro ⟨entry, hentry, file, hholds, hname⟩
    exact ⟨file, ⟨entry, hentry, hholds⟩, hname⟩

/-- Of the files of entries in ascending order the last one of a handler is kept. -/
theorem find?_filterMap_iff (hascending : Dictionary.Ascending entries) :
    (Dictionary.ofList ((entries.filterMap (fileIn? directory)).map fun f => (f.handlerName, f))).find? name =
        some file ↔
      ∃ entry ∈ entries, Holds directory file entry ∧ file.handlerName = name ∧
        ∀ other ∈ entries, ∀ file', Holds directory file' other → file'.handlerName = name → other.1 ≤ entry.1 := by
  rw [Dictionary.find?_ofList_iff]
  constructor
  · rintro ⟨before, after, hsplit, hafter⟩
    -- the files that were read are split where the one of the handler stands, and so are the entries
    obtain ⟨_, read, hread, -, hcons⟩ := List.map_eq_append_iff.1 hsplit
    obtain ⟨_, later, rfl, heq, rfl⟩ := List.map_eq_cons_iff.1 hcons
    obtain ⟨rfl, rfl⟩ := Prod.mk.inj heq
    obtain ⟨front, rest, rfl, -, hrest⟩ := List.filterMap_eq_append_iff.1 hread
    obtain ⟨passed, entry, back, rfl, -, hentry, rfl⟩ := List.filterMap_eq_cons_iff.1 hrest
    rw [← List.append_assoc] at hascending ⊢
    refine ⟨entry, by simp, fileIn?_eq_some_iff.1 hentry, rfl, ?_⟩
    intro other hother file' hholds hname
    rcases List.mem_append.1 hother with hother | hother
    · have hlt := (List.pairwise_append.1 hascending).2.2 other hother entry List.mem_cons_self
      exact hlt.le
    · rcases List.mem_cons.1 hother with rfl | hother
      · exact le_rfl
      · -- a later file of the handler would have been kept instead
        have hkept := mem_keys_filterMap_iff.2 ⟨other, hother, file', hholds, hname⟩
        exact absurd hkept hafter
  · rintro ⟨entry, hentry, hholds, rfl, hgreatest⟩
    obtain ⟨front, back, rfl⟩ := List.append_of_mem hentry
    refine ⟨(front.filterMap (fileIn? directory)).map fun f => (f.handlerName, f),
      (back.filterMap (fileIn? directory)).map fun f => (f.handlerName, f), ?_, ?_⟩
    · rw [List.filterMap_append, List.filterMap_cons_some (fileIn?_eq_some_iff.2 hholds), List.map_append,
        List.map_cons]
    · intro hmem
      obtain ⟨other, hother, file', hholds', hname⟩ := mem_keys_filterMap_iff.1 hmem
      have hlisted : other ∈ front ++ entry :: back :=
        List.mem_append_right front (List.mem_cons_of_mem _ hother)
      have hle : other.1 ≤ entry.1 := hgreatest other hlisted file' hholds' hname
      have hlt : entry.1 < other.1 :=
        (List.pairwise_cons.1 (List.pairwise_append.1 hascending).2.1).1 other hother
      exact absurd hle (not_le_of_gt hlt)

/-- The file of a handler is that of the last entry which holds one. -/
theorem get?_ofEntries_iff (hnodup : (Dictionary.keys entries).Nodup)
    (hnames : ∀ entry ∈ entries, FilePath.IsName entry.1) :
    (ofEntries directory entries).get? name = some file ↔
      file.handlerName = name ∧ ∃ entry, Wins directory entries entry file := by
  have hmem {entry : String × FileTree} : entry ∈ Dictionary.ofList entries ↔ entry ∈ entries :=
    Dictionary.mem_ofList_iff hnodup
  rw [get?, ofEntries_files, find?_filterMap_iff (Dictionary.ascending_ofList entries)]
  constructor
  -- entries of one directory are compared by their names, so that the greatest path is the greatest name
  · rintro ⟨entry, hentry, hholds, rfl, hgreatest⟩
    have hlisted : entry ∈ entries := hmem.1 hentry
    refine ⟨rfl, entry, hlisted, hholds, ?_⟩
    intro other hother file' hother' hname
    have hle : other.1 ≤ entry.1 := hgreatest other (hmem.2 hother) file' hother' hname
    rcases hle.lt_or_eq with hlt | heq
    · exact .inr ((FilePath.precedes_below_iff (hnames _ hother) (hnames _ hlisted)).2 hlt)
    · exact .inl (List.inj_on_of_nodup_map hnodup hother hlisted heq)
  · rintro ⟨rfl, entry, hentry, hholds, hgreatest⟩
    refine ⟨entry, hmem.2 hentry, hholds, rfl, ?_⟩
    intro other hother file' hother' hname
    have hlisted : other ∈ entries := hmem.1 hother
    rcases hgreatest other hlisted file' hother' hname with rfl | hprecedes
    · exact le_rfl
    · have hlt := (FilePath.precedes_below_iff (hnames _ hlisted) (hnames _ hentry)).1 hprecedes
      exact hlt.le

/-- A handler has no file in the store if no entry holds one. -/
theorem get?_ofEntries_eq_none_iff (hnodup : (Dictionary.keys entries).Nodup) :
    (ofEntries directory entries).get? name = none ↔
      ∀ entry ∈ entries, ∀ file, Holds directory file entry → file.handlerName ≠ name := by
  rw [get?, Dictionary.find?_eq_none_iff, ofEntries_files, Dictionary.ofList, Dictionary.mem_keys_insertAll,
    mem_keys_filterMap_iff]
  simp [Dictionary.mem_ofList_iff hnodup, Dictionary.keys]

/-! ## Files that do not win -/

/-- An entry holds one file of schemas at most. -/
theorem Holds.unique {file' : SchemaFile} (h : Holds directory file entry) (h' : Holds directory file' entry) :
    file = file' := by
  rw [← fileIn?_eq_some_iff] at h h'
  exact Option.some.inj (h.symm.trans h')

/-- Among the entries that hold files of one handler one wins. -/
theorem exists_wins (hnodup : (Dictionary.keys entries).Nodup)
    (hnames : ∀ entry ∈ entries, FilePath.IsName entry.1) (hentry : entry ∈ entries)
    (hholds : Holds directory file entry) :
    ∃ winner file', Wins directory entries winner file' ∧ file'.handlerName = file.handlerName := by
  cases hget : (ofEntries directory entries).get? file.handlerName with
  | none => exact absurd rfl ((get?_ofEntries_eq_none_iff hnodup).1 hget entry hentry file hholds)
  | some file' =>
      obtain ⟨hname, winner, hwins⟩ := (get?_ofEntries_iff hnodup hnames).1 hget
      exact ⟨winner, file', hwins, hname⟩

/-- Whatever wins in one directory wins in the other, if what wins in either is in both. -/
theorem Wins.congr (hnodup' : (Dictionary.keys entries').Nodup)
    (hnames : ∀ entry ∈ entries, FilePath.IsName entry.1) (hnames' : ∀ entry ∈ entries', FilePath.IsName entry.1)
    (hwinners : ∀ entry file, Wins directory entries entry file → entry ∈ entries')
    (hwinners' : ∀ entry file, Wins directory entries' entry file → entry ∈ entries)
    (h : Wins directory entries entry file) : Wins directory entries' entry file := by
  have hmem : entry ∈ entries' := hwinners entry file h
  obtain ⟨winner, file', hwins, hname⟩ := exists_wins hnodup' hnames' hmem h.holds
  have hwinner : winner ∈ entries := hwinners' winner file' hwins
  -- of the two winners neither can be the greater one
  have heq : winner = entry := by
    rcases h.greatest winner hwinner file' hwins.holds hname with heq | hlt
    · exact heq
    · rcases hwins.greatest entry hmem file h.holds hname.symm with heq | hgt
      · exact heq.symm
      · have hlt := (FilePath.precedes_below_iff (hnames _ hwinner) (hnames _ h.mem)).1 hlt
        have hgt := (FilePath.precedes_below_iff (hnames _ h.mem) (hnames _ hwinner)).1 hgt
        exact absurd hgt (String.lt_asymm hlt)
  subst heq
  rwa [h.holds.unique hwins.holds]

/-- Two directories with the same winners have the same store. -/
theorem ofEntries_congr (hnodup : (Dictionary.keys entries).Nodup) (hnodup' : (Dictionary.keys entries').Nodup)
    (hnames : ∀ entry ∈ entries, FilePath.IsName entry.1) (hnames' : ∀ entry ∈ entries', FilePath.IsName entry.1)
    (hwinners : ∀ entry file, Wins directory entries entry file → entry ∈ entries')
    (hwinners' : ∀ entry file, Wins directory entries' entry file → entry ∈ entries) :
    ofEntries directory entries' = ofEntries directory entries := by
  have hfiles : (ofEntries directory entries').files = (ofEntries directory entries).files := by
    have hascending (entries : List (String × FileTree)) : (ofEntries directory entries).files.Ascending := by
      rw [ofEntries_files]
      exact Dictionary.ascending_ofList _
    refine (hascending entries').ext (hascending entries) ?_
    intro name
    refine Option.ext ?_
    intro file
    -- Each name is won by the same entry in both listings, so the same file is kept.
    have hwins (entry : String × FileTree) :
        Wins directory entries' entry file ↔ Wins directory entries entry file :=
      ⟨.congr hnodup hnames' hnames hwinners' hwinners, .congr hnodup' hnames hnames' hwinners hwinners'⟩
    have hkept : (ofEntries directory entries).get? name = some file ↔ _ := get?_ofEntries_iff hnodup hnames
    have hkept' : (ofEntries directory entries').get? name = some file ↔ _ := get?_ofEntries_iff hnodup' hnames'
    exact hkept'.trans ((and_congr_right fun _ => exists_congr hwins).trans hkept.symm)
  exact congrArg SchemaStore.mk hfiles

/-! ## Directories -/

/-- Only a directory that cannot be listed is a failure. -/
theorem exists_error_ofDirectory_iff {files : Files} :
    (∃ failure, ofDirectory files directory = .error failure) ↔ ∃ e, files.list directory = .error e := by
  unfold ofDirectory
  cases files.list directory <;> simp

/-- A directory that can be listed gives the files that its entries hold. -/
theorem ofDirectory_eq_ok {files : Files} (hlist : files.list directory = .ok entries) :
    ofDirectory files directory = .ok (ofEntries directory entries) := by
  rw [ofDirectory, hlist]

/-- What is listed in a proper tree are names, each of them once. -/
theorem names_of_list {files : Files} (hproper : files.root.Proper) (hlist : files.list directory = .ok entries) :
    (Dictionary.keys entries).Nodup ∧ ∀ entry ∈ entries, FilePath.IsName entry.1 := by
  have hfind : files.find directory = .ok (.directory entries) := by
    unfold Files.list at hlist
    -- What can be listed is a directory of a proper tree.
    cases hfind : files.find directory with
    | error e =>
        rw [hfind] at hlist
        cases hlist
    | ok t =>
        rw [hfind] at hlist
        cases t with
        | file content => cases hlist
        | directory listed => rw [Except.ok.inj hlist]
  have ht := Files.proper_of_find hproper hfind
  exact ⟨ht.nodup_keys, fun entry hentry => ht.isName hentry⟩

/-- **Loading is exact and tolerant.** Loading a directory fails if and only if it cannot be listed. Otherwise
the file of a handler is the one at the greatest path of all that hold a file of the handler, and there is none
if no path does. So the store stays as it is in any other tree that has the winners and no other winners, and
however the directory is listed. -/
theorem ofDirectory_exact (files : Files) (hproper : files.root.Proper) (directory : FilePath) :
    ((∃ failure, ofDirectory files directory = .error failure) ↔ ∃ e, files.list directory = .error e) ∧
    ∀ entries, files.list directory = .ok entries → ∃ store, ofDirectory files directory = .ok store ∧
      (∀ name file, store.get? name = some file ↔
        file.handlerName = name ∧ ∃ entry, Wins directory entries entry file) ∧
      (∀ name, store.get? name = none ↔
        ∀ entry ∈ entries, ∀ file, Holds directory file entry → file.handlerName ≠ name) ∧
      (∀ files' : Files, files'.root.Proper → ∀ entries', files'.list directory = .ok entries' →
        (∀ entry file, Wins directory entries entry file → entry ∈ entries') →
          (∀ entry file, Wins directory entries' entry file → entry ∈ entries) →
            ofDirectory files' directory = .ok store) ∧
      ∀ (files' : Files) entries', files'.list directory = .ok entries' → entries'.Perm entries →
        ofDirectory files' directory = .ok store := by
  refine ⟨exists_error_ofDirectory_iff, ?_⟩
  intro entries hlist
  obtain ⟨hnodup, hnames⟩ := names_of_list hproper hlist
  refine ⟨ofEntries directory entries, ofDirectory_eq_ok hlist, fun name file => get?_ofEntries_iff hnodup hnames,
    fun name => get?_ofEntries_eq_none_iff hnodup, ?_, ?_⟩
  · -- another tree with the same winners
    intro files' hproper' entries' hlist' hwinners hwinners'
    obtain ⟨hnodup', hnames'⟩ := names_of_list hproper' hlist'
    rw [ofDirectory_eq_ok hlist', ofEntries_congr hnodup hnodup' hnames hnames' hwinners hwinners']
  · -- another order of the same entries, which has the same winners
    intro files' entries' hlist' hperm
    have hnodup' : (Dictionary.keys entries').Nodup := (hperm.map Prod.fst).nodup_iff.2 hnodup
    have hnames' : ∀ entry ∈ entries', FilePath.IsName entry.1 := fun entry h => hnames entry (hperm.mem_iff.1 h)
    have hwinners (entry : String × FileTree) (file : SchemaFile) (h : Wins directory entries entry file) :
        entry ∈ entries' := hperm.mem_iff.2 h.mem
    have hwinners' (entry : String × FileTree) (file : SchemaFile) (h : Wins directory entries' entry file) :
        entry ∈ entries := hperm.mem_iff.1 h.mem
    rw [ofDirectory_eq_ok hlist', ofEntries_congr hnodup hnodup' hnames hnames' hwinners hwinners']

end SchemaStore

/-! ## A directory of schemas -/

namespace Schemas

/-- Two files of one handler, and others that are none. -/
def listing : List (String × FileTree) :=
  [("a.json", .ofText "\x7b\"version\":1,\"handlerName\":\"list\",\"requestSchema\":\x7b\x7d\x7d"),
    ("b.json", .ofText "\x7b\"version\":1,\"handlerName\":\"list\",\"responseSchema\":\x7b\x7d\x7d"),
    ("c.json", .ofText "\x7b\"version\":2,\"handlerName\":\"list\"\x7d"), ("d.json", .directory []),
    ("e.txt", .ofText "\x7b\"version\":1,\"handlerName\":\"list\"\x7d")]

def workspace (entries : List (String × FileTree)) : Files where
  root := .directory [("schemas", .directory entries)]
  start := []

theorem list_workspace (entries : List (String × FileTree)) : (workspace entries).list ⟨"schemas"⟩ = .ok entries := by
  have hparts : (FilePath.mk "schemas").parts = [.name "schemas"] := by decide +kernel
  have hplain : (FilePath.mk "schemas").saysDirectory = false := by decide +kernel
  unfold Files.list Files.find Files.place
  rw [hparts, hplain, if_neg (by decide)]
  rfl

end Schemas

namespace SchemaStore

open Schemas

/-- The second file wins, also if it is listed before the first one. -/
theorem ofDirectory_exact_schemas : (workspace listing).root.Proper ∧ listing.reverse.Perm listing ∧ ∃ store,
    ofDirectory (workspace listing) ⟨"schemas"⟩ = .ok store ∧
      ofDirectory (workspace listing.reverse) ⟨"schemas"⟩ = .ok store ∧
        (store.get? "list").map (fun file => (file.request.isSome, file.response.isSome)) = some (false, true) := by
  have hproper : (workspace listing).root.Proper := by decide +kernel
  have hperm : listing.reverse.Perm listing := List.reverse_perm _
  obtain ⟨store, hstore, -, -, -, hlisted⟩ :=
    (ofDirectory_exact (workspace listing) hproper ⟨"schemas"⟩).2 listing (list_workspace _)
  refine ⟨hproper, hperm, store, hstore, hlisted _ _ (list_workspace _) hperm, ?_⟩
  have hkept : ((ofDirectory (workspace listing) ⟨"schemas"⟩).toOption.bind (·.get? "list")).map
      (fun file => (file.request.isSome, file.response.isSome)) = some (false, true) := by
    decide +kernel
  rw [hstore] at hkept
  exact hkept

end SchemaStore

end PayloadSchema
