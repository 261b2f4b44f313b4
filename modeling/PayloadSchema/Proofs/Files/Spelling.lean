import PayloadSchema.Modules.Locator
import PayloadSchema.Resolve.Scope

/-!
# Texts of one path

A path may be spelled in several ways, and what is at it is decided by its parts, but for one thing: a text
with a slash or a dot at its end says that a directory is meant, and then no file is found. Apart from that,
the file and its module are the same however the path is spelled.

* `Files.SameFile` — two spellings of the path of one file;
* `Files.SameFile.content?_eq`, `ModulePath.ofFile_congr` — what does not depend on the spelling;
* `Locating.saysDirectory_of_mem_locate` — the files of a module are never spelled as directories.
-/

namespace PayloadSchema

/-! ## Parts of a path -/

namespace FilePath

/-- A text has at least one piece, even if it is empty. -/
theorem splitSlashes_ne_nil (cs : List Char) : splitSlashes cs ≠ [] := by
  fun_cases splitSlashes cs <;> simp_all

/-- Only the empty text has an empty piece for its only one. -/
theorem eq_nil_of_splitSlashes_eq {cs : List Char} (h : splitSlashes cs = [[]]) : cs = [] := by
  revert h
  fun_cases splitSlashes cs with
  | case1 => exact fun _ => rfl
  | case2 rest =>
      intro h
      rw [List.cons.injEq] at h
      exact absurd h.2 (splitSlashes_ne_nil rest)
  | case3 c rest hc piece more hrest => simp
  | case4 c rest hc hrest => exact absurd hrest (splitSlashes_ne_nil rest)

/-- A piece that is neither empty nor a single dot is a part of the path. -/
theorem exists_pieceOf? {cs : List Char} (hempty : cs ≠ []) (hdot : cs ≠ ['.']) :
    ∃ part, pieceOf? cs = some part := by
  fun_cases pieceOf? cs with
  | case1 => exact absurd rfl hempty
  | case2 => exact absurd rfl hdot
  | case3 => exact ⟨_, rfl⟩
  | case4 => exact ⟨_, rfl⟩

/-- Only the empty text has no parts. -/
theorem text_eq_empty_of_parts_eq_nil {p : FilePath} (h : p.parts = []) : p.text = "" := by
  unfold parts at h
  split at h
  next hnil => exact absurd hnil (splitSlashes_ne_nil _)
  next first rest hcons =>
    have hstart := (List.append_eq_nil_iff.1 h).1
    -- A first piece that is not empty is a part; an empty one is the root unless it is all there is.
    by_cases hfirst : first = []
    · by_cases hrest : rest = []
      · rw [hfirst, hrest] at hcons
        exact String.toList_eq_nil_iff.1 (eq_nil_of_splitSlashes_eq hcons)
      · simp [hfirst, hrest] at hstart
    · by_cases hdot : first = ['.']
      · simp [hdot] at hstart
      · obtain ⟨part, hpart⟩ := exists_pieceOf? hfirst hdot
        simp [hfirst, hdot, hpart] at hstart

/-- A text that ends in a letter says nothing of a directory. -/
theorem saysDirectory_of_getLast? {p : FilePath} {c : Char} (hlast : p.text.toList.getLast? = some c)
    (hslash : c ≠ '/') (hdot : c ≠ '.') : p.saysDirectory = false := by
  -- an ending of the text ends in that letter as well
  have hends (ending : String) (hne : ending.toList.getLast? ≠ some c) (hempty : ending.toList ≠ []) :
      p.text.endsWith ending = false := by
    rw [Bool.eq_false_iff]
    intro h
    have hsuffix : ending.toList <:+ p.text.toList := by
      rw [String.endsWith] at h
      simpa only [String.Slice.endsWith_string_iff, String.copy_toSlice] using h
    obtain ⟨before, hbefore⟩ := hsuffix
    rw [← hbefore, List.getLast?_append, Option.or_of_isSome (by simpa using hempty)] at hlast
    exact hne hlast
  unfold saysDirectory
  rw [hends "/" (by simpa using hslash.symm) (by simp), hends "/." (by simpa using hdot.symm) (by simp)]
  rfl

/-- A path below another ends as the text does that is put below it. -/
theorem below_text (base : FilePath) (text : String) :
    ∃ before, (base.below text).text = before ++ text := by
  unfold below join
  split
  · exact ⟨"", (String.empty_append).symm⟩
  · split
    · exact ⟨base.text, rfl⟩
    · exact ⟨base.text ++ "/", rfl⟩

end FilePath

/-! ## One file -/

namespace Files

variable {files : Files} {p q : FilePath}

/-- A file is what has a content. -/
theorem isFile_iff_content? : files.isFile p = true ↔ (files.content? p).isSome = true := by
  unfold isFile content?
  cases files.find p with
  | error e => simp
  | ok t => cases t <;> simp [FileTree.isFile]

/-- The place that the parts of a path lead to. -/
def reach (files : Files) (parts : List FilePath.Part) : Except PathError Place :=
  files.startPlace >>= fun start => parts.foldlM (fun p part => p.step files part) start

/-- A path leads where its parts lead, unless its text is empty or says that a file is a directory. -/
theorem place_eq (files : Files) (p : FilePath) :
    files.place p =
      if p.text = "" then .error .missing
      else
        files.reach p.parts >>= fun found =>
          if p.saysDirectory && found.here.isFile then .error .notDirectory else .ok found := by
  unfold place reach
  split
  · rfl
  · rw [bind_assoc]
    rfl

/-- The file at a path is the one that its parts lead to, unless the text says directory. -/
theorem content?_eq (files : Files) (p : FilePath) :
    files.content? p =
      if p.text = "" ∨ p.saysDirectory = true then none
      else
        match files.reach p.parts with
        | .ok ⟨_, .file content⟩ => some content
        | _ => none := by
  unfold content? find
  rw [place_eq]
  by_cases htext : p.text = ""
  · simp [htext, Functor.map, Except.map]
  · cases files.reach p.parts with
    | error e => simp [htext, bind, Except.bind, Functor.map, Except.map]
    | ok found =>
        rcases found with ⟨above, here⟩
        -- A directory has no content, and a file is not found under a path spelled as a directory.
        cases here <;> cases p.saysDirectory <;>
          simp [htext, bind, Except.bind, Functor.map, Except.map, FileTree.isFile]

/-- A path that ends as that of a directory has no content to read. -/
theorem saysDirectory_of_content? {content : FileContent} (h : files.content? p = some content) : p.saysDirectory = false := by
  rw [Bool.eq_false_iff]
  intro hplain
  rw [content?_eq, if_pos (.inr hplain)] at h
  cases h

/-- The path of a file is not spelled as that of a directory. -/
theorem saysDirectory_of_isFile (h : files.isFile p = true) : p.saysDirectory = false := by
  obtain ⟨content, hcontent⟩ := Option.isSome_iff_exists.1 (isFile_iff_content?.1 h)
  exact saysDirectory_of_content? hcontent

/-- What is found does not depend on the spelling, unless it says directory. -/
theorem content?_congr (hparts : p.parts = q.parts) (hp : p.saysDirectory = false)
    (hq : q.saysDirectory = false) : files.content? p = files.content? q := by
  have htext : p.text = "" ↔ q.text = "" := by
    constructor
    · intro h
      apply FilePath.text_eq_empty_of_parts_eq_nil
      rw [← hparts, show p = ⟨""⟩ from congrArg FilePath.mk h]
      rfl
    · intro h
      apply FilePath.text_eq_empty_of_parts_eq_nil
      rw [hparts, show q = ⟨""⟩ from congrArg FilePath.mk h]
      rfl
  simp only [content?_eq, hparts, hp, hq, htext]

/-- Two spellings of the path of one file. -/
structure SameFile (files : Files) (p q : FilePath) : Prop where
  parts : p.parts = q.parts
  left : files.isFile p = true
  right : files.isFile q = true

namespace SameFile

theorem refl (h : files.isFile p = true) : files.SameFile p p := ⟨rfl, h, h⟩

theorem symm (h : files.SameFile p q) : files.SameFile q p := ⟨h.parts.symm, h.right, h.left⟩

theorem trans {r : FilePath} (h : files.SameFile p q) (h' : files.SameFile q r) : files.SameFile p r :=
  ⟨h.parts.trans h'.parts, h.left, h'.right⟩

/-- Another spelling of the path of a file is that of the same file, unless it says directory. -/
theorem of_parts (hparts : p.parts = q.parts) (hp : files.isFile p = true)
    (hq : q.saysDirectory = false) : files.SameFile p q := by
  refine ⟨hparts, hp, ?_⟩
  rw [isFile_iff_content?] at hp ⊢
  rwa [← content?_congr hparts (saysDirectory_of_isFile (isFile_iff_content?.2 hp)) hq]

theorem content?_eq (h : files.SameFile p q) : files.content? p = files.content? q :=
  content?_congr h.parts (saysDirectory_of_isFile h.left) (saysDirectory_of_isFile h.right)

end SameFile

end Files

/-- The module of a file is decided by the parts of its path. -/
theorem ModulePath.ofFile_congr (root : FilePath) {p q : FilePath} (h : p.parts = q.parts) :
    ModulePath.ofFile root p = ModulePath.ofFile root q := by
  unfold ModulePath.ofFile FilePath.relativeTo?
  rw [h]

/-! ## Located files -/

namespace Files

variable {files : Files}

/-- What is found below a path has the name that it was found by at its end. -/
theorem path_of_mem_below {depth : Nat} {path : FilePath} {t : FileTree} {found : Found}
    (h : found ∈ below depth path t) : ∃ before : FilePath, found.path = before.below found.name := by
  induction depth generalizing path t with
  | zero => cases h
  | succ depth ih =>
      rw [below, List.mem_flatMap] at h
      obtain ⟨⟨name, inner⟩, -, hmem⟩ := h
      rcases List.mem_cons.1 hmem with rfl | hmem
      · exact ⟨path, rfl⟩
      · exact ih hmem

/-- A file that is found by its name is never spelled as a directory: its path ends with the name. -/
theorem saysDirectory_of_mem_filesNamed {start file : FilePath} {name : String}
    (h : file ∈ files.filesNamed start (name ++ ".rs")) : file.saysDirectory = false := by
  unfold filesNamed near searchRoot? at h
  obtain ⟨found, hfound, rfl⟩ := List.mem_map.1 h
  obtain ⟨hmem, hnamed⟩ := List.mem_filter.1 hfound
  rw [Bool.and_eq_true, beq_iff_eq] at hnamed
  cases hstart : files.find start with
  | error e =>
      rw [hstart] at hmem
      cases hmem
  | ok t =>
      rw [hstart] at hmem
      rcases List.mem_cons.1 hmem with rfl | hmem
      · -- the search may start at a file
        have hfile : files.isFile start = true := by
          unfold isFile
          rw [hstart]
          exact hnamed.1
        exact saysDirectory_of_isFile hfile
      · obtain ⟨base, hbase⟩ := path_of_mem_below hmem
        obtain ⟨before, hbefore⟩ := base.below_text found.name
        refine FilePath.saysDirectory_of_getLast? (c := 's') ?_ (by decide) (by decide)
        rw [hbase, hbefore, hnamed.2]
        simp

end Files

namespace Locating

variable {files : Files}

/-- The files that a module is looked for in are files. -/
theorem isFile_of_mem_moduleFiles {base : FilePath} {names : List String} {file : FilePath}
    (h : file ∈ moduleFiles files base names) : files.isFile file = true := by
  unfold moduleFiles at h
  exact (List.mem_filter.1 h).2

/-- The files that a directory gives for a module are files. -/
theorem isFile_of_mem_ofDirectory {last : String} {directory file : FilePath}
    (h : file ∈ ofDirectory files last directory) : files.isFile file = true := by
  unfold ofDirectory at h
  dsimp only at h
  rcases List.mem_append.1 h with h | h <;> split at h
  case inl.isTrue hcond =>
    rw [List.mem_singleton.1 h]
    exact (Bool.and_eq_true_iff.1 hcond).1
  case inr.isTrue hcond =>
    rw [List.mem_singleton.1 h]
    exact (Bool.and_eq_true_iff.1 hcond).1
  all_goals cases h

/-- Leaving out the repetitions adds no path. -/
theorem mem_of_mem_distinct {paths : List FilePath} {file : FilePath} (h : file ∈ distinct paths) :
    file ∈ paths := by
  -- whatever is kept was kept before or is among the rest
  have hkept (rest kept : List FilePath)
      (h : file ∈ rest.foldl (fun kept p => if kept.any p.same then kept else kept ++ [p]) kept) :
      file ∈ kept ∨ file ∈ rest := by
    induction rest generalizing kept with
    | nil => exact .inl h
    | cons p rest ih =>
        rcases ih _ h with h | h
        · dsimp only at h
          split at h
          · exact .inl h
          · rcases List.mem_append.1 h with h | h
            · exact .inl h
            · exact .inr (List.mem_cons.2 (.inl (List.mem_singleton.1 h)))
        · exact .inr (List.mem_cons_of_mem p h)
  rcases hkept paths [] h with h | h
  · cases h
  · exact h

/-- The files that a search gives for a module are never spelled as directories. -/
theorem saysDirectory_of_mem_searched {root file : FilePath} {last : String}
    (h : file ∈ searched files root last) : file.saysDirectory = false := by
  unfold searched at h
  obtain ⟨start, -, hmem⟩ := List.mem_flatMap.1 h
  rcases List.mem_append.1 hmem with hmem | hmem
  · obtain ⟨directory, -, hmem⟩ := List.mem_flatMap.1 hmem
    exact Files.saysDirectory_of_isFile (isFile_of_mem_ofDirectory hmem)
  · exact Files.saysDirectory_of_mem_filesNamed (List.mem_filter.1 hmem).1

/-- The files of a module are never spelled as directories. -/
theorem saysDirectory_of_mem_locate {root file : FilePath} {module : String}
    (h : file ∈ locate files root module) : file.saysDirectory = false := by
  unfold locate at h
  dsimp only at h
  split at h
  · obtain ⟨⟨base, names⟩, -, hmem⟩ := List.mem_flatMap.1 (mem_of_mem_distinct h)
    exact Files.saysDirectory_of_isFile (isFile_of_mem_moduleFiles hmem)
  · split at h
    · cases h
    · have hmem := mem_of_mem_distinct h
      split at hmem
      · obtain ⟨directory, -, hmem⟩ := List.mem_flatMap.1 hmem
        exact Files.saysDirectory_of_isFile (isFile_of_mem_moduleFiles hmem)
      · exact saysDirectory_of_mem_searched hmem

end Locating

/-! ## Libraries in memory -/

/-- What a text reads as is found when it is asked for. -/
theorem FileContent.get_source (text : String) :
    (Thunk.mk fun _ => (some text).bind Source.SourceFile.ofText?).get =
      (some text).bind Source.SourceFile.ofText? := rfl

def FileTree.ofText (text : String) : FileTree :=
  .file { text := some text, source_eq := FileContent.get_source text }

/-- Source files by name, in ascending order, in the directory `src` where paths start. -/
def Files.ofSources (sources : List (String × String)) : Files where
  root := .directory [("src", .directory (sources.map fun (name, text) => (name, .ofText text)))]
  start := []

end PayloadSchema
