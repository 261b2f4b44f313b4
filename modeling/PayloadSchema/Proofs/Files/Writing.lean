import Mathlib.Tactic.SplitIfs
import PayloadSchema.Files.Saving
import PayloadSchema.Proofs.Files.Joining

/-!
# Files that are written

A file that is written stands in the list of its directory, in the place of one of that name. Elsewhere in
the tree a file stays a file and a directory a directory (`FileTree.Keeps`), so that every path leads where
it led before, through the directory above a directory as well.

* `Files.list_of_write?`, `Files.list_of_save` — the entries of a directory after a file was written into it.
-/

namespace PayloadSchema

/-! ## Paths from their parts -/

namespace FilePath

/-- There is no slash in a piece between slashes. -/
theorem not_mem_of_mem_splitSlashes {cs piece : List Char} (h : piece ∈ splitSlashes cs) : '/' ∉ piece := by
  induction cs generalizing piece with
  | nil =>
      rw [List.mem_singleton.1 h]
      exact List.not_mem_nil
  | cons c cs ih =>
      -- A slash opens a new piece, any other character joins the first one.
      by_cases hc : c = '/'
      · subst hc
        rcases List.mem_cons.1 h with rfl | h
        · exact List.not_mem_nil
        · exact ih h
      · obtain ⟨first, rest, hcs, hcons⟩ := splitSlashes_cons_of_ne hc cs
        rw [hcons] at h
        rcases List.mem_cons.1 h with rfl | h
        · rw [List.mem_cons, not_or]
          exact ⟨Ne.symm hc, ih (hcs ▸ List.mem_cons_self)⟩
        · exact ih (hcs ▸ List.mem_cons_of_mem first h)

/-- A part that may stand behind others: the directory above, or an entry. -/
inductive Part.Inner : Part → Prop where
  | parent : Inner .parent
  | name {text : String} (h : IsName text) : Inner (.name text)

/-- A piece without a slash is a part that may stand anywhere in a path. -/
theorem inner_of_pieceOf? {cs : List Char} {part : Part} (hslash : '/' ∉ cs) (h : pieceOf? cs = some part) :
    part.Inner := by
  revert h
  -- The empty piece and a dot give no part, two dots the parent; any other text is a name.
  fun_cases pieceOf? cs with
  | case1 =>
      intro h
      cases h
  | case2 =>
      intro h
      cases h
  | case3 =>
      rintro ⟨⟩
      exact .parent
  | case4 cs hempty hcurrent hparent =>
      rintro ⟨⟩
      have hne (text : String) (hcs : cs ≠ text.toList) : String.ofList cs ≠ text := by
        rintro rfl
        exact hcs String.toList_ofList.symm
      exact .name ⟨hne "" hempty, by rwa [String.toList_ofList], hne "." hcurrent, hne ".." hparent⟩

def withPart (p : FilePath) : Part → FilePath
  | .root => ⟨"/"⟩
  | .current => p.below "."
  | .parent => p.below ".."
  | .name text => p.below text

theorem ofParts_eq (parts : List Part) : ofParts parts = parts.foldl withPart ⟨""⟩ := rfl

/-- A part that is added to a path comes after the parts that the path has. -/
theorem Part.Inner.parts_withPart {part : Part} (h : part.Inner) (p : FilePath) :
    (p.withPart part).parts = p.parts ++ [part] := by
  cases h with
  | parent => exact parts_join (p := ⟨".."⟩) rfl
  | name hname => exact hname.parts_below p

/-- The parts that are added to a path one by one come after those that it has, in their order. -/
theorem parts_foldl_withPart {parts : List Part} (h : ∀ part ∈ parts, part.Inner) (p : FilePath) :
    (parts.foldl withPart p).parts = p.parts ++ parts := by
  induction parts generalizing p with
  | nil => rw [List.foldl_nil, List.append_nil]
  | cons part parts ih =>
      obtain ⟨hpart, hparts⟩ := List.forall_mem_cons.1 h
      rw [List.foldl_cons, ih hparts, hpart.parts_withPart, List.append_assoc]
      rfl

/-- The parts of a path by the pieces of its text: only the first may be the root or a dot. -/
theorem parts_of_splitSlashes {p : FilePath} {first : List Char} {rest : List (List Char)}
    (h : splitSlashes p.text.toList = first :: rest) :
    p.parts =
      (if first = [] then (if rest = [] then [] else [.root])
       else if first = ['.'] then [.current]
       else (pieceOf? first).toList) ++ rest.filterMap pieceOf? := by
  unfold parts
  rw [h]

/-- The parts of a path give a path with these parts. -/
theorem parts_ofParts (p : FilePath) : (ofParts p.parts).parts = p.parts := by
  cases hsplit : splitSlashes p.text.toList with
  | nil => exact absurd hsplit (splitSlashes_ne_nil _)
  | cons first rest =>
      have hpieces : ∀ piece ∈ first :: rest, '/' ∉ piece := by
        intro piece hpiece
        exact not_mem_of_mem_splitSlashes (hsplit ▸ hpiece)
      obtain ⟨hfirst, hrest⟩ := List.forall_mem_cons.1 hpieces
      have hinner : ∀ part ∈ rest.filterMap pieceOf?, part.Inner := by
        intro part hpart
        obtain ⟨piece, hpiece, hpart⟩ := List.mem_filterMap.1 hpart
        exact inner_of_pieceOf? (hrest piece hpiece) hpart
      rw [ofParts_eq, parts_of_splitSlashes hsplit]
      -- only the first piece may stand for the root or for the place where paths start
      split_ifs with hempty hlast hcurrent
      · subst hlast
        rfl
      · exact parts_foldl_withPart hinner ⟨"/"⟩
      · rw [List.singleton_append, List.foldl_cons, show withPart ⟨""⟩ .current = ⟨"."⟩ from empty_join _]
        exact parts_foldl_withPart hinner ⟨"."⟩
      · refine parts_foldl_withPart (List.forall_mem_append.2 ⟨?_, hinner⟩) ⟨""⟩
        intro part hpart
        exact inner_of_pieceOf? hfirst (Option.mem_toList.1 hpart)

end FilePath

/-! ## Trees -/

namespace FileTree

variable {t t' value : FileTree}

@[simp] theorem get?_nil (t : FileTree) : t.get? [] = some t := by
  rw [get?]

theorem get?_cons (t : FileTree) (name : String) (names : List String) :
    t.get? (name :: names) = (Dictionary.find? t.entries name).bind (·.get? names) := by
  rw [get?]

/-- A place below a place of the tree is looked for in the tree that is there. -/
theorem get?_append (t : FileTree) (names names' : List String) :
    t.get? (names ++ names') = (t.get? names).bind (·.get? names') := by
  induction names generalizing t with
  | nil => simp
  | cons name names ih =>
      rw [List.cons_append, get?_cons, get?_cons]
      cases Dictionary.find? t.entries name with
      | none => rfl
      | some inner => exact ih inner

/-- What is put at a place below the root goes into a directory. -/
theorem put?_cons {name : String} {names : List String} (h : put? value (name :: names) t = some t') :
    ∃ entries inner, t = .directory entries ∧ t' = .directory (Dictionary.insert entries name inner) ∧
      put? value names ((Dictionary.find? entries name).getD (.directory [])) = some inner := by
  cases t with
  | file content => cases h
  | directory entries =>
      rw [put?] at h
      obtain ⟨inner, hinner, rfl⟩ := Option.map_eq_some_iff.1 h
      exact ⟨entries, inner, rfl, rfl, hinner⟩

/-- What is put into a directory is its entry. -/
theorem get?_put? {names : List String} {name : String} {entries : List (String × FileTree)}
    (hput : put? value (names ++ [name]) t = some t') (hget : t.get? names = some (.directory entries)) :
    t'.get? names = some (.directory (Dictionary.insert entries name value)) := by
  -- Writing rebuilds the directories on the way down; the last one holds the new entry.
  induction names generalizing t t' with
  | nil =>
      obtain rfl : t = .directory entries := Option.some.inj (t.get?_nil.symm.trans hget)
      obtain ⟨_, inner, ⟨⟩, rfl, hinner⟩ := put?_cons hput
      rw [put?] at hinner
      rw [get?_nil, ← Option.some.inj hinner]
  | cons first names ih =>
      obtain ⟨outer, inner, rfl, rfl, hinner⟩ := put?_cons hput
      rw [get?_cons] at hget ⊢
      obtain ⟨before, hfind, hbefore⟩ := Option.bind_eq_some_iff.1 hget
      have hfind : Dictionary.find? outer first = some before := hfind
      rw [hfind, Option.getD_some] at hinner
      have hinserted : Dictionary.find?
          (FileTree.entries (.directory (Dictionary.insert outer first inner))) first = some inner :=
        Dictionary.find?_insert_self _ _ _
      rw [hinserted, Option.bind_some]
      exact ih hinner hbefore

/-- Whatever is in the one tree is in the other as well, a file as a file and a directory as a directory. -/
def Keeps (t t' : FileTree) : Prop :=
  ∀ names inner, t.get? names = some inner →
    ∃ inner', t'.get? names = some inner' ∧ inner'.isFile = inner.isFile

/-- A file that takes the place of nothing but a file changes no kind. -/
theorem keeps_put? {names : List String} {content : FileContent}
    (hput : put? (.file content) names t = some t')
    (hfile : ∀ inner, t.get? names = some inner → inner.isFile = true) : Keeps t t' := by
  induction names generalizing t t' with
  | nil =>
      rw [put?] at hput
      cases hput
      have ht := hfile t t.get?_nil
      cases t with
      | directory entries => cases ht
      | file before =>
          intro names inner hinner
          cases names with
          | nil => exact ⟨_, get?_nil _, by rw [← Option.some.inj hinner]; rfl⟩
          | cons => cases hinner
  | cons name names ih =>
      obtain ⟨entries, inner, rfl, rfl, hinner⟩ := put?_cons hput
      intro path found hfound
      cases path with
      | nil => exact ⟨_, get?_nil _, by rw [← Option.some.inj hfound]; rfl⟩
      | cons other path =>
          rw [get?_cons] at hfound ⊢
          obtain ⟨before, hfind, hbefore⟩ := Option.bind_eq_some_iff.1 hfound
          have hfind : Dictionary.find? entries other = some before := hfind
          change ∃ inner', (Dictionary.find? (Dictionary.insert entries name inner) other).bind (·.get? path) =
            some inner' ∧ inner'.isFile = found.isFile
          -- Only the entry on the way is rewritten, and what lies below it keeps its kind by induction.
          by_cases hother : other = name
          · subst hother
            rw [Dictionary.find?_insert_self, Option.bind_some]
            rw [hfind, Option.getD_some] at hinner
            refine ih hinner (fun inner' hinner' => hfile inner' ?_) path found hbefore
            rw [get?_cons]
            exact Option.bind_eq_some_iff.2 ⟨before, hfind, hinner'⟩
          · rw [Dictionary.find?_insert_of_ne _ _ hother, hfind]
            exact ⟨found, hbefore, rfl⟩

end FileTree

/-! ## Places -/

namespace Files

variable {files files' : Files} {root root' : FileTree} {p p' q : Place}

namespace Place

/-- A place whose directories are those on the way to it from the root of a tree. -/
inductive Sound (root : FileTree) : Place → Prop where
  | root : Sound root ⟨[], root⟩
  | child {above : List (String × FileTree)} {entries : List (String × FileTree)} {name : String}
    {inner : FileTree} (h : Sound root ⟨above, .directory entries⟩)
    (hfind : Dictionary.find? entries name = some inner) :
    Sound root ⟨(name, .directory entries) :: above, inner⟩

@[simp] theorem names_root (t : FileTree) : names ⟨[], t⟩ = [] := rfl

@[simp] theorem names_cons (name : String) (outer t : FileTree) (above : List (String × FileTree)) :
    names ⟨(name, outer) :: above, t⟩ = names ⟨above, outer⟩ ++ [name] := by
  simp [names]

/-- At the names of a sound place, the tree has what the place says is there. -/
theorem Sound.get?_names (h : p.Sound root) : root.get? p.names = some p.here := by
  induction h with
  | root => exact root.get?_nil
  | @child above entries name inner h hfind ih =>
      rw [names_cons, FileTree.get?_append, ih]
      have hfind : Dictionary.find? (FileTree.entries (.directory entries)) name = some inner := hfind
      simp [FileTree.get?_cons, hfind]

/-- A name leads from a directory to its entry of that name, and the directory is remembered. -/
theorem child_eq_ok {name : String} (h : p.child name = .ok q) : ∃ entries, p.here = .directory entries ∧
    Dictionary.find? entries name = some q.here ∧ q.above = (name, p.here) :: p.above := by
  unfold child at h
  split at h
  · cases h
  next entries hhere =>
    split at h
    next inner hinner =>
      cases h
      exact ⟨entries, hhere, hinner, rfl⟩
    · cases h

/-- Only a directory has a place above it, and one name less leads there. -/
theorem up_eq_ok (h : p.up = .ok q) : p.here.isFile = false ∧ q.names = p.names.dropLast := by
  obtain ⟨above, here⟩ := p
  unfold up at h
  cases here with
  | file content => cases h
  | directory entries =>
      refine ⟨rfl, ?_⟩
      cases above with
      | nil =>
          cases h
          rfl
      | cons first above =>
          cases h
          rw [names_cons, List.dropLast_concat]

/-- Every directory has a place above it; the root is its own. -/
theorem exists_up (h : p.here.isFile = false) : ∃ q, p.up = .ok q := by
  obtain ⟨above, here⟩ := p
  cases here with
  | file content => cases h
  | directory entries =>
      cases above with
      | nil => exact ⟨_, rfl⟩
      | cons first above => exact ⟨_, rfl⟩

/-- The place above a sound one is sound. -/
theorem Sound.up (hp : p.Sound root) (h : p.up = .ok q) : q.Sound root := by
  obtain ⟨above, here⟩ := p
  unfold Place.up at h
  cases here with
  | file content => cases h
  | directory entries =>
      cases hp with
      | root =>
          cases h
          exact .root
      | child houter hfind =>
          cases h
          exact houter

/-- Whatever part of a path is followed from a sound place, the place that it leads to is sound. -/
theorem Sound.step {part : FilePath.Part} (hp : p.Sound files.root) (h : p.step files part = .ok q) :
    q.Sound files.root := by
  -- Going up drops a name that was sound, going down adds one that was just found.
  cases part with
  | root =>
      cases h
      exact .root
  | current =>
      cases h
      exact hp
  | parent =>
      exact hp.up h
  | name text =>
      obtain ⟨entries, hhere, hfind, habove⟩ := child_eq_ok h
      obtain ⟨above, here⟩ := p
      obtain ⟨above', here'⟩ := q
      dsimp only at hhere hfind habove
      subst hhere habove
      exact hp.child hfind

/-- In a tree that keeps what is in another one, a part of a path leads where it leads there. -/
theorem step_of_keeps {part : FilePath.Part} (hkeeps : files.root.Keeps files'.root) (hp : p.Sound files.root)
    (hp' : p'.Sound files'.root) (hnames : p'.names = p.names) (h : p.step files part = .ok q) :
    ∃ q', p'.step files' part = .ok q' ∧ q'.names = q.names := by
  -- Both places have one kind, so a step down or up is possible at both.
  have hkind : p'.here.isFile = p.here.isFile := by
    obtain ⟨inner, hinner, hkind⟩ := hkeeps _ _ hp.get?_names
    rw [← hnames, hp'.get?_names] at hinner
    rw [Option.some.inj hinner, hkind]
  cases part with
  | root =>
      cases h
      exact ⟨_, rfl, rfl⟩
  | current =>
      cases h
      exact ⟨p', rfl, hnames⟩
  | parent =>
      obtain ⟨hdirectory, hq⟩ := up_eq_ok h
      obtain ⟨q', hq'⟩ := exists_up (hkind.trans hdirectory)
      exact ⟨q', hq', by rw [(up_eq_ok hq').2, hq, hnames]⟩
  | name text =>
      obtain ⟨inner, hinner, -⟩ := hkeeps _ _ (hp.step h).get?_names
      obtain ⟨entries, hhere, -, habove⟩ := child_eq_ok h
      have hq : q.names = p.names ++ [text] := by
        obtain ⟨above, here⟩ := q
        dsimp only at habove
        subst habove
        exact names_cons _ _ _ _
      obtain ⟨above', here'⟩ := p'
      cases here' with
      | file content =>
          rw [hhere] at hkind
          cases hkind
      | directory entries' =>
          -- The name is listed in the new tree as well, since the write keeps what was there.
          rw [hq, ← hnames, FileTree.get?_append, hp'.get?_names, Option.bind_some,
            FileTree.get?_cons] at hinner
          obtain ⟨found, hfind, -⟩ := Option.bind_eq_some_iff.1 hinner
          refine ⟨⟨(text, .directory entries') :: above', found⟩, ?_, ?_⟩
          · have hfind : Dictionary.find? entries' text = some found := hfind
            change child ⟨above', .directory entries'⟩ text = _
            unfold child
            dsimp only
            rw [hfind]
          · rw [names_cons, hq, ← hnames]

end Place

/-- A relative path is followed from the root of the tree, behind the names of the start. -/
theorem reach_eq (files : Files) (parts : List FilePath.Part) :
    files.reach parts = (files.start.map FilePath.Part.name ++ parts).foldlM
      (fun p part => p.step files part) ⟨[], files.root⟩ := by
  rw [List.foldlM_append, List.foldlM_map]
  rfl

/-- In a tree that keeps what is in another one, a path leads where it leads there. -/
theorem reach_of_keeps (hkeeps : files.root.Keeps files'.root) (hstart : files'.start = files.start)
    {parts : List FilePath.Part} (h : files.reach parts = .ok p) :
    p.Sound files.root ∧ ∃ p', files'.reach parts = .ok p' ∧ p'.Sound files'.root ∧ p'.names = p.names := by
  rw [reach_eq] at h ⊢
  rw [hstart]
  -- One part at a time, with the two places kept at the same names.
  have hsteps (parts : List FilePath.Part) (p p' q : Place) (hp : p.Sound files.root)
      (hp' : p'.Sound files'.root) (hnames : p'.names = p.names)
      (h : parts.foldlM (fun p part => p.step files part) p = .ok q) : q.Sound files.root ∧
        ∃ q', parts.foldlM (fun p part => p.step files' part) p' = .ok q' ∧ q'.Sound files'.root ∧
          q'.names = q.names := by
    induction parts generalizing p p' with
    | nil =>
        cases h
        exact ⟨hp, p', rfl, hp', hnames⟩
    | cons part parts ih =>
        rw [List.foldlM_cons] at h ⊢
        cases hstep : p.step files part with
        | error e =>
            rw [hstep] at h
            cases h
        | ok r =>
            rw [hstep] at h
            obtain ⟨r', hr', hrnames⟩ := Place.step_of_keeps hkeeps hp hp' hnames hstep
            rw [hr']
            exact ih r r' (hp.step hstep) (hp'.step hr') hrnames h
  exact hsteps _ _ _ p .root .root rfl h

/-! ## Lists of directories -/

/-- The entries of a path are those of the directory that its parts lead to. -/
theorem list_eq_ok_iff {path : FilePath} {entries : List (String × FileTree)} :
    files.list path = .ok entries ↔
      path.text ≠ "" ∧ ∃ p, files.reach path.parts = .ok p ∧ p.here = .directory entries := by
  unfold list find
  rw [place_eq]
  by_cases htext : path.text = ""
  · simp [htext, bind, Except.bind, Functor.map, Except.map]
  · cases files.reach path.parts with
    | error e => simp [htext, bind, Except.bind, Functor.map, Except.map]
    | ok found =>
        obtain ⟨above, here⟩ := found
        cases here <;> cases path.saysDirectory <;>
          simp [htext, bind, Except.bind, Functor.map, Except.map, FileTree.isFile, throw, throwThe,
            MonadExceptOf.throw, pure, Except.pure]

variable {directory : FilePath} {name : String} {content : FileContent} {entries : List (String × FileTree)}

/-- The path above an entry of a directory leads to the directory. -/
theorem exists_parent (hname : FilePath.IsName name) (hlist : files.list directory = .ok entries) :
    ∃ parent p, (directory.below name).parent? = some parent ∧ parent.text ≠ "" ∧
      files.place parent = .ok p ∧ files.reach directory.parts = .ok p ∧ p.here = .directory entries := by
  obtain ⟨htext, p, hreach, hhere⟩ := list_eq_ok_iff.1 hlist
  have hparts := FilePath.parts_ofParts directory
  -- A directory that can be listed has a name, so it has parts to write out again.
  have hparent : (FilePath.ofParts directory.parts).text ≠ "" := by
    intro hempty
    refine htext (FilePath.text_eq_empty_of_parts_eq_nil ?_)
    rw [← hparts, show FilePath.ofParts directory.parts = ⟨""⟩ from congrArg FilePath.mk hempty]
    rfl
  refine ⟨FilePath.ofParts directory.parts, p, ?_, hparent, ?_, hreach, hhere⟩
  · unfold FilePath.parent?
    rw [hname.parts_below, List.getLast?_concat, List.dropLast_concat]
  · rw [place_eq, if_neg hparent, hparts, hreach]
    simp [hhere, FileTree.isFile, bind, Except.bind]

/-- A file that is written into a directory becomes its entry. -/
theorem list_of_write? (hname : FilePath.IsName name) (hlist : files.list directory = .ok entries)
    (hwrite : files.write? (directory.below name) content = some files') :
    files'.list directory = .ok (Dictionary.insert entries name (.file content)) := by
  obtain ⟨htext, -⟩ := list_eq_ok_iff.1 hlist
  obtain ⟨parent, p, hparent, hparentText, hplace, hreach, hhere⟩ := exists_parent hname hlist
  have hlast : (directory.below name).name? = some name := by
    rw [FilePath.name?, hname.parts_below, List.getLast?_concat]
  -- what was written, and in whose place
  obtain ⟨hfile, root, hput, rfl⟩ : (∀ t, Dictionary.find? entries name = some t → t.isFile = true) ∧
      ∃ root, FileTree.put? (.file content) (p.names ++ [name]) files.root = some root ∧
        files' = { files with root } := by
    unfold write? at hwrite
    simp only [hlast, hparent, hparentText, hplace, hhere, Option.bind_eq_bind, Option.bind_some, if_false,
      Except.toOption, Option.pure_def, Option.bind_none, Option.ite_none_left_eq_some] at hwrite
    obtain ⟨-, hwrite⟩ := hwrite
    split at hwrite
    · cases hwrite
    next hnot =>
      obtain ⟨root, hput, heq⟩ := Option.bind_eq_some_iff.1 hwrite
      refine ⟨?_, root, hput, (Option.some.inj heq).symm⟩
      intro t ht
      cases t with
      | file content => rfl
      | directory inner => exact absurd ht (hnot inner)
  have hsound : p.Sound files.root := (reach_of_keeps (fun _ _ h => ⟨_, h, rfl⟩) rfl hreach).1
  have hget : files.root.get? p.names = some (.directory entries) := hhere ▸ hsound.get?_names
  have hkeeps : files.root.Keeps ({ files with root } : Files).root := by
    refine FileTree.keeps_put? hput ?_
    intro inner hinner
    rw [FileTree.get?_append, hget, Option.bind_some, FileTree.get?_cons] at hinner
    obtain ⟨t, hfind, hinner⟩ := Option.bind_eq_some_iff.1 hinner
    rw [FileTree.get?_nil] at hinner
    cases hinner
    exact hfile _ hfind
  obtain ⟨-, p', hreach', hsound', hnames⟩ := reach_of_keeps hkeeps rfl hreach
  refine list_eq_ok_iff.2 ⟨htext, p', hreach', ?_⟩
  have hget' := hsound'.get?_names
  rw [hnames] at hget'
  exact Option.some.inj (hget'.symm.trans (FileTree.get?_put? hput hget))

/-- A text that is saved in a directory is the text of its entry. -/
theorem list_of_save {text : String} (hname : FilePath.IsName name)
    (hlist : files.list directory = .ok entries)
    (hsave : files.save (directory.below name) text = .ok files') :
    files'.list directory =
      .ok (Dictionary.insert entries name (.ofText text)) := by
  obtain ⟨parent, p, hparent, -, hplace, -⟩ := exists_parent hname hlist
  have hthere : files.isThere parent = true := by
    unfold isThere find
    rw [hplace]
    rfl
  -- The directory is there already, so saving is one write.
  have hmake : files.makeParents (directory.below name) = .ok files := by
    unfold makeParents
    simp [hparent, hthere]
  unfold save at hsave
  rw [hmake] at hsave
  cases hwrite : files.write? (directory.below name) { text := some text } with
  | none =>
      simp only [bind, Except.bind, hwrite] at hsave
      cases hsave
  | some saved =>
      simp only [bind, Except.bind, hwrite] at hsave
      cases hsave
      exact list_of_write? hname hlist hwrite

end Files

end PayloadSchema
