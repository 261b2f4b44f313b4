import PayloadSchema.Proofs.Files.Spelling

/-!
# Parts of joined paths

A path is joined to another on the text, and what counts are the parts. The pieces between slashes are those
of the two texts one after the other (`FilePath.pieces_join`), and so are the parts, as long as the second
path is relative: then its parts are just its pieces. A directory may be spelled in any way, with a slash or
a dot at its end or not at all; that changes nothing for what lies below it.

* `FilePath.parts_join`, `FilePath.parts_foldl_below` — the parts of joined paths;
* `FilePath.withExtension_below` — a name without a dot gets an extension.
-/

namespace PayloadSchema.FilePath

/-! ## Pieces between slashes -/

/-- A character that is no slash goes to the first piece. -/
theorem splitSlashes_cons_of_ne {c : Char} (hc : c ≠ '/') (cs : List Char) :
    ∃ piece more, splitSlashes cs = piece :: more ∧ splitSlashes (c :: cs) = (c :: piece) :: more := by
  cases hcs : splitSlashes cs with
  | nil => exact absurd hcs (splitSlashes_ne_nil cs)
  | cons piece more =>
      refine ⟨piece, more, rfl, ?_⟩
      rw [splitSlashes, hcs]
      exact hc

/-- A slash separates the pieces before it from those after it. -/
theorem splitSlashes_append (xs ys : List Char) :
    splitSlashes (xs ++ '/' :: ys) = splitSlashes xs ++ splitSlashes ys := by
  induction xs with
  | nil => rfl
  | cons c xs ih =>
      by_cases hc : c = '/'
      · subst hc
        exact congrArg ([] :: ·) ih
      · obtain ⟨piece, more, hxs, hcons⟩ := splitSlashes_cons_of_ne hc xs
        obtain ⟨piece', more', hall, hcons'⟩ := splitSlashes_cons_of_ne hc (xs ++ '/' :: ys)
        rw [ih, hxs] at hall
        cases hall
        rw [List.cons_append, hcons, hcons']
        rfl

/-- Without a slash there is one piece. -/
theorem splitSlashes_of_not_mem {cs : List Char} (h : '/' ∉ cs) : splitSlashes cs = [cs] := by
  induction cs with
  | nil => rfl
  | cons c cs ih =>
      obtain ⟨hc, hcs⟩ := List.ne_and_not_mem_of_not_mem_cons h
      obtain ⟨piece, more, hpieces, hcons⟩ := splitSlashes_cons_of_ne hc.symm cs
      rw [ih hcs] at hpieces
      cases hpieces
      exact hcons

/-- The parts that the pieces of a text stand for, wherever the text stands. -/
def pieces (cs : List Char) : List Part := (splitSlashes cs).filterMap pieceOf?

@[simp] theorem pieces_nil : pieces [] = [] := rfl

/-- A slash separates the parts before it from those after it. -/
theorem pieces_append (xs ys : List Char) : pieces (xs ++ '/' :: ys) = pieces xs ++ pieces ys := by
  rw [pieces, splitSlashes_append, List.filterMap_append]
  rfl

/-- The root is no piece between slashes. -/
theorem root_not_mem_pieces (cs : List Char) : Part.root ∉ pieces cs := by
  intro h
  obtain ⟨piece, -, hpiece⟩ := List.mem_filterMap.1 h
  revert hpiece
  fun_cases pieceOf? piece <;> simp

/-- A path that begins with a slash begins at the root. -/
theorem parts_slash (ys : List Char) :
    (FilePath.mk (String.ofList ('/' :: ys))).parts = .root :: pieces ys := by
  have hsplit : splitSlashes ('/' :: ys) = [] :: splitSlashes ys := rfl
  unfold parts
  dsimp only
  rw [String.toList_ofList, hsplit]
  simp [splitSlashes_ne_nil ys, pieces]

/-- What comes after a slash has only pieces. -/
theorem parts_append_slash {xs : List Char} (hxs : xs ≠ []) (ys : List Char) :
    (FilePath.mk (String.ofList (xs ++ '/' :: ys))).parts =
      (FilePath.mk (String.ofList xs)).parts ++ pieces ys := by
  unfold parts
  dsimp only
  rw [String.toList_ofList, String.toList_ofList, splitSlashes_append]
  cases hpieces : splitSlashes xs with
  | nil => exact absurd hpieces (splitSlashes_ne_nil xs)
  | cons first rest =>
      -- Only the very first piece can mean the root, and it is the same on both sides unless nothing stands
      -- there.
      have hstart : first = [] → rest ≠ [] := by
        rintro rfl rfl
        exact hxs (eq_nil_of_splitSlashes_eq hpieces)
      dsimp only [List.cons_append]
      rw [List.filterMap_append, ← List.append_assoc]
      congr 2
      by_cases hfirst : first = []
      · simp [hfirst, hstart hfirst, splitSlashes_ne_nil ys]
      · simp [hfirst]

/-! ## Relative paths -/

/-- A path whose parts are its pieces: it starts neither at the root nor with a dot. -/
def IsRelative (p : FilePath) : Prop := p.parts = pieces p.text.toList

theorem isRelative_empty : IsRelative ⟨""⟩ := rfl

/-- A relative path does not begin with a slash. -/
theorem IsRelative.isAbsolute_eq {p : FilePath} (h : p.IsRelative) : p.isAbsolute = false := by
  rw [Bool.eq_false_iff]
  intro habsolute
  obtain ⟨rest, hrest⟩ := String.startsWith_string_iff.1 habsolute
  have htext : p = ⟨String.ofList ('/' :: rest)⟩ :=
    congrArg FilePath.mk (String.toList_inj.1 (by rw [String.toList_ofList, ← hrest]; rfl))
  refine root_not_mem_pieces p.text.toList ?_
  rw [← h, htext, parts_slash]
  exact List.mem_cons_self

/-- Where a path is put below another. -/
theorem join_text (base : FilePath) {p : FilePath} (h : p.isAbsolute = false) :
    (base.text = "" ∧ base.join p = p) ∨
      (∃ xs, base.text.toList = xs ++ ['/'] ∧ (base.join p).text.toList = xs ++ '/' :: p.text.toList) ∨
      (base.text ≠ "" ∧ (base.join p).text.toList = base.text.toList ++ '/' :: p.text.toList) := by
  unfold join
  rw [h]
  by_cases hempty : base.text = ""
  · left
    simp [hempty]
  · -- A base that ends in a slash gets no second one.
    by_cases hslash : base.text.endsWith "/" = true
    · right
      left
      have hsuffix : ['/'] <:+ base.text.toList := by
        rwa [String.endsWith, String.Slice.endsWith_string_iff, String.copy_toSlice] at hslash
      obtain ⟨xs, hxs⟩ := hsuffix
      exact ⟨xs, hxs.symm, by simp [hslash, ← hxs]⟩
    · right
      right
      exact ⟨hempty, by simp [hempty, hslash]⟩

/-- Below the empty path every path is itself. -/
theorem empty_join (p : FilePath) : join ⟨""⟩ p = p := by
  unfold join
  cases p.isAbsolute <;> simp

/-- The pieces of a joined path are those of both. -/
theorem pieces_join {base p : FilePath} (h : p.isAbsolute = false) :
    pieces (base.join p).text.toList = pieces base.text.toList ++ pieces p.text.toList := by
  rcases join_text base h with ⟨hempty, hjoin⟩ | ⟨xs, hbase, hjoin⟩ | ⟨-, hjoin⟩
  · rw [hjoin, hempty]
    rfl
  · rw [hjoin, hbase, pieces_append, pieces_append, pieces_nil, List.append_nil]
  · rw [hjoin, pieces_append]

/-- A path below another has the parts of both. -/
theorem parts_join {base p : FilePath} (h : p.IsRelative) :
    (base.join p).parts = base.parts ++ p.parts := by
  have hmk (q : FilePath) : (FilePath.mk (String.ofList q.text.toList)).parts = q.parts := by
    rw [String.ofList_toList]
  rw [h, ← hmk (base.join p), ← hmk base]
  rcases join_text base h.isAbsolute_eq with ⟨hempty, hjoin⟩ | ⟨xs, hbase, hjoin⟩ | ⟨hne, hjoin⟩
  · rw [hjoin, hempty, hmk, h]
    rfl
  · rw [hjoin, hbase]
    by_cases hxs : xs = []
    · -- the path is put below the root
      subst hxs
      rw [List.nil_append, List.nil_append, parts_slash, parts_slash]
      rfl
    · rw [parts_append_slash hxs, parts_append_slash hxs, pieces_nil, List.append_nil]
  · rw [hjoin]
    exact parts_append_slash (by simpa using hne) _

/-- Relative paths may be joined. -/
theorem IsRelative.join {base p : FilePath} (hbase : base.IsRelative) (h : p.IsRelative) :
    (base.join p).IsRelative := by
  unfold IsRelative
  rw [parts_join h, pieces_join h.isAbsolute_eq, ← hbase, ← h]

/-! ## Names -/

/-- A text that is the name of one entry of a directory. -/
structure IsName (text : String) : Prop where
  ne_empty : text ≠ ""
  not_slash : '/' ∉ text.toList
  not_current : text ≠ "."
  not_parent : text ≠ ".."

namespace IsName

variable {text : String}

instance : Decidable (IsName text) :=
  decidable_of_iff (text ≠ "" ∧ '/' ∉ text.toList ∧ text ≠ "." ∧ text ≠ "..")
    ⟨fun ⟨hempty, hslash, hcurrent, hparent⟩ => ⟨hempty, hslash, hcurrent, hparent⟩,
      fun ⟨hempty, hslash, hcurrent, hparent⟩ => ⟨hempty, hslash, hcurrent, hparent⟩⟩

/-- A name is a piece that stands for itself. -/
theorem pieceOf?_eq (h : IsName text) : pieceOf? text.toList = some (.name text) := by
  generalize htext : text.toList = cs
  fun_cases pieceOf? cs with
  | case1 => exact absurd (String.toList_eq_nil_iff.1 htext) h.ne_empty
  | case2 => exact absurd (String.toList_inj.1 htext) h.not_current
  | case3 => exact absurd (String.toList_inj.1 htext) h.not_parent
  | case4 => rw [← htext, String.ofList_toList]

/-- A name is its only piece. -/
theorem pieces_eq (h : IsName text) : pieces text.toList = [.name text] := by
  rw [pieces, splitSlashes_of_not_mem h.not_slash, List.filterMap_cons, h.pieceOf?_eq]
  rfl

theorem isRelative (h : IsName text) : IsRelative ⟨text⟩ := by
  have hempty : text.toList ≠ [] := fun hnil => h.ne_empty (String.toList_eq_nil_iff.1 hnil)
  have hdot : text.toList ≠ ['.'] := fun hdot => h.not_current (String.toList_inj.1 hdot)
  unfold IsRelative
  rw [h.pieces_eq]
  unfold parts
  dsimp only
  rw [splitSlashes_of_not_mem h.not_slash]
  simp [hempty, hdot, h.pieceOf?_eq]

/-- A path below another one has one part more. -/
theorem parts_below (h : IsName text) (base : FilePath) :
    (base.below text).parts = base.parts ++ [.name text] := by
  rw [below, parts_join h.isRelative, h.isRelative, h.pieces_eq]

end IsName

/-- Names one below the other, below a path. -/
theorem parts_foldl_below (base : FilePath) {names : List String} (h : ∀ name ∈ names, IsName name) :
    (names.foldl below base).parts = base.parts ++ names.map .name := by
  induction names generalizing base with
  | nil => simp
  | cons name names ih =>
      have hfirst := h name List.mem_cons_self
      rw [List.foldl_cons, ih _ fun other hother => h other (List.mem_cons_of_mem _ hother),
        hfirst.parts_below, List.append_assoc]
      rfl

/-- Names may be put below a relative path one after the other. -/
theorem isRelative_foldl_below {base : FilePath} (hbase : base.IsRelative) {names : List String}
    (h : ∀ name ∈ names, IsName name) : (names.foldl below base).IsRelative := by
  induction names generalizing base with
  | nil => exact hbase
  | cons name names ih =>
      obtain ⟨hname, hrest⟩ := List.forall_mem_cons.1 h
      exact ih (hbase.join hname.isRelative) hrest

/-! ## Extensions -/

/-- Nothing is trimmed from a name that ends in neither a slash nor a dot. -/
theorem trimReversed_cons {c : Char} (hslash : c ≠ '/') (hdot : c ≠ '.') (cs : List Char) :
    trimReversed (c :: cs) = c :: cs := by
  unfold trimReversed
  split
  next h => exact absurd (List.cons.inj h).1 hslash
  next h => exact absurd (List.cons.inj h).1 hdot
  next => rfl

/-- A name is cut at its last dot. -/
theorem cutExtension_append {stem extension : List Char} (hstem : stem ≠ []) (hdot : '.' ∉ extension) :
    cutExtension (stem ++ '.' :: extension) = (stem, some extension) := by
  have hreverse : (stem ++ '.' :: extension).reverse = extension.reverse ++ '.' :: stem.reverse := by
    simp
  -- The extension is what stands behind the last dot, read from the back.
  have hafter : (stem ++ '.' :: extension).reverse.takeWhile (· ≠ '.') = extension.reverse := by
    rw [hreverse, List.takeWhile_append_of_pos, List.takeWhile_cons]
    · simp
    · intro c hc
      rw [List.mem_reverse] at hc
      exact decide_eq_true fun heq => hdot (heq ▸ hc)
  have hlength : (stem ++ '.' :: extension).length - extension.length - 1 = stem.length := by
    rw [List.length_append, List.length_cons]
    omega
  unfold cutExtension
  dsimp only
  rw [hafter, List.reverse_reverse, hlength, List.take_left]
  simp [hstem]

/-- The slashes at the end of a path are left out to get at its name; a name without a dot has none after
it. -/
theorem withExtension_eq {p : FilePath} {before name : String} (hname : p.name? = some name)
    (htext : p.text = before ++ name) (hempty : name ≠ "") (hslash : '/' ∉ name.toList)
    (hdot : '.' ∉ name.toList) (extension : String) :
    p.withExtension extension = ⟨p.text ++ "." ++ extension⟩ := by
  obtain ⟨c, cs, hreversed⟩ : ∃ c cs, name.toList.reverse = c :: cs :=
    List.exists_cons_of_ne_nil (by simpa using hempty)
  have hmem : c ∈ name.toList := by
    rw [← List.mem_reverse, hreversed]
    exact List.mem_cons_self
  -- The name holds neither slash nor dot, so nothing is trimmed from the end and nothing cut off.
  have htrim : trimReversed p.text.toList.reverse = p.text.toList.reverse := by
    rw [htext, String.toList_append, List.reverse_append, hreversed, List.cons_append]
    exact trimReversed_cons (fun h => hslash (h ▸ hmem)) (fun h => hdot (h ▸ hmem)) _
  have hstem : (cutExtension name.toList).1 = name.toList := by
    simp [cutExtension, hdot]
  unfold withExtension
  rw [hname]
  dsimp only
  rw [htrim, hstem, htext, String.toList_append, List.reverse_append,
    List.drop_left' (by rw [List.length_reverse, String.length_toList]), List.reverse_reverse,
    String.ofList_append, String.ofList_toList, String.ofList_toList]

/-- A name without a dot, below a path, gets an extension. -/
theorem withExtension_below {text : String} (h : IsName text) (hdot : '.' ∉ text.toList) (base : FilePath)
    {extension : String} (hextended : IsName (text ++ "." ++ extension)) :
    (base.below text).withExtension extension = base.below (text ++ "." ++ extension) := by
  obtain ⟨before, hbefore⟩ := base.below_text text
  have hname : (base.below text).name? = some text := by
    rw [name?, h.parts_below, List.getLast?_concat]
  rw [withExtension_eq hname hbefore h.ne_empty h.not_slash hdot]
  unfold below join
  rw [h.isRelative.isAbsolute_eq, hextended.isRelative.isAbsolute_eq]
  by_cases hbase : base.text = "" ∨ base.text.endsWith "/" = true <;> simp [hbase, String.append_assoc]

end PayloadSchema.FilePath
