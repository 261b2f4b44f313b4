import PayloadSchema.Modules.Path
import PayloadSchema.Proofs.Text.Segments

/-!
# Paths relative to a module

A path may begin with `crate`, with `self`, or with `super` once or more often, perhaps after `self`, and
then names follow; or names stand alone. What each of these beginnings means inside a module is said here
from the library of the module and the names on the way to it (`Start.from?`), and the paths that are read
for the module are those, with one exception: after `self` a `super` is taken for a name.

* `canonicalize?_written` — a path is what its beginning means, and is read again as it is;
* `canonicalize?_ne_meaning` — but not where `super` comes after `self`.
-/

namespace PayloadSchema.ModulePath

/-- The words by which a path says where it begins. -/
def startWords : List String := ["crate", "self", "super"]

/-- A name that is none of these words and is no path itself. -/
def IsPlain (name : String) : Prop := ':' ∉ name.toList ∧ name ∉ startWords

instance (name : String) : Decidable (IsPlain name) := inferInstanceAs (Decidable (_ ∧ _))

/-- The path of a module by segments: the library under analysis or one with a plain name, and plain names
below it. -/
structure IsModule (library : String) (names : List String) : Prop where
  library : library = ownLibrary ∨ IsPlain library
  names : ∀ name ∈ names, IsPlain name

/-- How a path begins. -/
inductive Start where
  /-- With a name. -/
  | name
  /-- With `crate`. -/
  | library
  /-- With `self`. -/
  | here
  /-- With `super`, and as many more. -/
  | above (more : Nat)
  /-- With `self` and then `super`, and as many more. -/
  | hereAbove (more : Nat)
deriving DecidableEq

namespace Start

def words : Start → List String
  | name => []
  | library => ["crate"]
  | here => ["self"]
  | above more => List.replicate (more + 1) "super"
  | hereAbove more => "self" :: List.replicate (more + 1) "super"

/-- The segments of a path with some names after its beginning. There is nothing above a library. -/
def from? (library : String) (names children rest : List String) : Start → Option (List String)
  | name => some (if rest.headD "" ∈ children then library :: names ++ rest else rest)
  | .library => some (library :: rest)
  | here => some (library :: names ++ rest)
  | above more | hereAbove more =>
    if names.length < more + 1 then none
    else some (library :: names.take (names.length - (more + 1)) ++ rest)

end Start

/-- A path by its beginning and the names after it, of which there is one at least if the path begins with
a name. -/
structure Written (start : Start) (rest : List String) : Prop where
  plain : ∀ name ∈ rest, IsPlain name
  ne_nil : start = .name → rest ≠ []

/-! ## Segments without separators -/

section

variable {library : String} {names rest : List String}

theorem IsPlain.not_colon {name : String} (h : IsPlain name) : ':' ∉ name.toList := h.1

/-- A plain name is no word that a path may start with in its place. -/
theorem IsPlain.ne {name word : String} (h : IsPlain name) (hword : word ∈ startWords) : name ≠ word := by
  rintro rfl
  exact h.2 hword

/-- There are no colons in the names of a module. -/
theorem IsModule.not_colon (h : IsModule library names) : ∀ name ∈ library :: names, ':' ∉ name.toList := by
  intro name hname
  rcases List.mem_cons.1 hname with rfl | hname
  · rcases h.library with rfl | hplain
    · decide
    · exact hplain.not_colon
  · exact (h.names name hname).not_colon

/-- The segments of a module path are found again. -/
theorem IsModule.split (h : IsModule library names) :
    Segments.split (Segments.join (library :: names)) = library :: names :=
  Segments.split_join (List.cons_ne_nil _ _) h.not_colon

/-- The segments of a module path are found again also with `super`s among the names below it. -/
theorem IsModule.split_supers (h : IsModule library names) (hrest : ∀ name ∈ rest, IsPlain name) (more : Nat) :
    Segments.split (Segments.join (library :: names ++ (List.replicate more "super" ++ rest))) =
      library :: names ++ (List.replicate more "super" ++ rest) := by
  refine Segments.split_join (by simp) ?_
  intro segment hsegment
  rcases List.mem_append.1 hsegment with hsegment | hsegment
  · exact h.not_colon segment hsegment
  · rcases List.mem_append.1 hsegment with hsegment | hsegment
    · rw [List.eq_of_mem_replicate hsegment]
      decide
    · exact (hrest segment hsegment).not_colon

/-- A part of a module's path is that of a module. -/
theorem IsModule.of_subset {names' : List String} (h : IsModule library names) (hsub : names' ⊆ names) :
    IsModule library names' :=
  ⟨h.library, fun name hname => h.names name (hsub hname)⟩

/-- A module inside a module. -/
theorem IsModule.append (h : IsModule library names) (hrest : ∀ name ∈ rest, IsPlain name) :
    IsModule library (names ++ rest) := by
  refine ⟨h.library, ?_⟩
  intro name hname
  rcases List.mem_append.1 hname with hname | hname
  · exact h.names name hname
  · exact hrest name hname

end

/-! ## Reading a path -/

section

variable {library : String} {names rest : List String} (children : List String)

/-- A path from the crate is one from the library of the module. -/
theorem canonicalize?_crate (module : String) :
    canonicalize? ("crate" :: rest) module children =
      some (Segments.join ((Segments.split module).take 1 ++ rest)) := rfl

/-- A path from here is one from the module. -/
theorem canonicalize?_self (module : String) :
    canonicalize? ("self" :: rest) module children = some (Segments.join (Segments.split module ++ rest)) :=
  rfl

/-- Only the `super`s at the beginning are counted. -/
theorem takeWhile_super (more : Nat) (hrest : ∀ name ∈ rest, IsPlain name) :
    ((List.replicate (more + 1) "super" ++ rest).takeWhile (· == "super")).length = more + 1 := by
  have hsupers : ∀ word ∈ List.replicate (more + 1) "super", (word == "super") = true := by
    intro word hword
    rw [List.eq_of_mem_replicate hword]
    rfl
  have hnames : rest.takeWhile (· == "super") = [] := by
    cases rest with
    | nil => rfl
    | cons name rest =>
        have hname : name ≠ "super" := (hrest name List.mem_cons_self).ne (by decide)
        rw [List.takeWhile_cons_of_neg]
        simpa using hname
  rw [List.takeWhile_append_of_pos hsupers, hnames, List.append_nil, List.length_replicate]

/-- A path that goes up some levels is one from the module so far above, if there is one. -/
theorem canonicalize?_super (more : Nat) (module : String) (hrest : ∀ name ∈ rest, IsPlain name) :
    canonicalize? (List.replicate (more + 1) "super" ++ rest) module children =
      if (Segments.split module).length ≤ more + 1 then none
      else some (Segments.join
        ((Segments.split module).take ((Segments.split module).length - (more + 1)) ++ rest)) := by
  have hcons : List.replicate (more + 1) "super" ++ rest =
      "super" :: (List.replicate more "super" ++ rest) := rfl
  have hdrop : (List.replicate (more + 1) "super" ++ rest).drop (more + 1) = rest := by
    rw [List.drop_left' (List.length_replicate)]
  -- All the words `super` are counted at once, and what follows them is plain.
  have hup := takeWhile_super more hrest
  rw [hcons] at hup hdrop ⊢
  unfold canonicalize?
  dsimp only
  rw [hup, hdrop]
  rfl

/-- A path that begins with a name is below the module if the name is that of a child, and else stays. -/
theorem canonicalize?_of_plain {first : String} (hfirst : IsPlain first) (module : String) :
    canonicalize? (first :: rest) module children =
      some (Segments.join (if first ∈ children then Segments.split module ++ first :: rest
        else first :: rest)) := by
  unfold canonicalize?
  split
  · next heq => cases heq
  · next heq =>
    injection heq with heq
    exact absurd heq (hfirst.ne (by decide))
  · next heq =>
    injection heq with heq
    exact absurd heq (hfirst.ne (by decide))
  · next heq =>
    injection heq with heq
    exact absurd heq (hfirst.ne (by decide))
  · next heq =>
    injection heq with heq htail
    subst heq
    -- A plain head is none of the three words, so only the children decide.
    by_cases hchild : first ∈ children <;> simp [hchild]

/-- A path that begins with the name of the module's library, or with a name that is not that of a child, is
read as it is. -/
theorem canonicalize?_of_library (hmodule : IsModule library names) (hchild : library ∉ children)
    (path : List String) :
    canonicalize? (library :: path) (Segments.join (library :: names)) children =
      some (Segments.join (library :: path)) := by
  rcases hmodule.library with hown | hplain
  · -- the library under analysis is called as the word for it
    subst hown
    show canonicalize? ("crate" :: path) _ children = _
    rw [canonicalize?_crate, hmodule.split]
    rfl
  · rw [canonicalize?_of_plain children hplain, if_neg hchild]

end

/-! ## What a path is read as -/

variable {library : String} {names rest : List String} (children : List String)

/-- What a beginning means, a `super` after `self` apart, is what the path is read as. -/
theorem canonicalize?_eq_from? (hmodule : IsModule library names) {start : Start}
    (h : Written start rest) (hstart : ∀ more, start ≠ .hereAbove more) :
    canonicalize? (start.words ++ rest) (Segments.join (library :: names)) children =
      (start.from? library names children rest).map Segments.join := by
  cases start with
  | name =>
      obtain ⟨first, more, rfl⟩ := List.exists_cons_of_ne_nil (h.ne_nil rfl)
      have hfirst : IsPlain first := h.plain first List.mem_cons_self
      rw [Start.words, List.nil_append, canonicalize?_of_plain children hfirst, hmodule.split]
      rfl
  | library =>
      rw [Start.words, List.singleton_append, canonicalize?_crate, hmodule.split]
      rfl
  | here =>
      rw [Start.words, List.singleton_append, canonicalize?_self, hmodule.split]
      rfl
  | above more =>
      rw [Start.words, canonicalize?_super children more _ h.plain, hmodule.split, List.length_cons,
        Start.from?]
      by_cases hlevels : names.length < more + 1
      · rw [if_pos hlevels, if_pos (by omega)]
        rfl
      · -- the library stays, since there are names enough below it
        have htake : names.length + 1 - (more + 1) = (names.length - (more + 1)) + 1 := by omega
        rw [if_neg hlevels, if_neg (by omega), htake, List.take_succ_cons]
        rfl
  | hereAbove more => exact absurd rfl (hstart more)

/-- After `self` each `super` is a name below the module. -/
theorem canonicalize?_hereAbove (hmodule : IsModule library names) (more : Nat) :
    canonicalize? ((Start.hereAbove more).words ++ rest) (Segments.join (library :: names)) children =
      some (Segments.join (library :: names ++ (List.replicate (more + 1) "super" ++ rest))) := by
  rw [Start.words, List.cons_append, canonicalize?_self, hmodule.split]

/-- What a beginning means is the path of a module and names below it, or names alone. -/
theorem plain_of_from? (hmodule : IsModule library names) {start : Start} (h : Written start rest)
    {segments : List String} (hfrom : start.from? library names children rest = some segments) :
    (∃ more, segments = library :: more ∧ IsModule library more) ∨
      (start = .name ∧ segments = rest ∧ rest.headD "" ∉ children) := by
  -- Only a name that is no child of the module starts outside the library.
  cases start with
  | name =>
      rw [Start.from?, Option.some.injEq] at hfrom
      by_cases hchild : rest.headD "" ∈ children
      · rw [if_pos hchild] at hfrom
        exact .inl ⟨names ++ rest, hfrom.symm, hmodule.append h.plain⟩
      · rw [if_neg hchild] at hfrom
        exact .inr ⟨rfl, hfrom.symm, hchild⟩
  | library =>
      cases hfrom
      exact .inl ⟨rest, rfl, hmodule.library, h.plain⟩
  | here =>
      cases hfrom
      exact .inl ⟨names ++ rest, rfl, hmodule.append h.plain⟩
  | above more | hereAbove more =>
      rw [Start.from?] at hfrom
      split at hfrom
      · cases hfrom
      · cases hfrom
        have hup := hmodule.of_subset (List.take_subset (names.length - (more + 1)) names)
        exact .inl ⟨_, rfl, hup.append h.plain⟩

/-- No word for a beginning is left in what a beginning means, but for the library under analysis. -/
theorem split_of_from? (hmodule : IsModule library names) {start : Start} (h : Written start rest)
    {segments : List String} (hfrom : start.from? library names children rest = some segments) :
    Segments.split (Segments.join segments) = segments ∧
      (∀ segment ∈ segments, segment ≠ "self" ∧ segment ≠ "super") ∧ "crate" ∉ segments.tail := by
  -- A plain name is neither of the two words, and a module holds plain names behind its library.
  have hword (name : String) (hname : IsPlain name) : name ≠ "self" ∧ name ≠ "super" :=
    ⟨hname.ne (by decide), hname.ne (by decide)⟩
  rcases plain_of_from? children hmodule h hfrom with ⟨more, rfl, hmore⟩ | ⟨rfl, rfl, -⟩
  · refine ⟨hmore.split, ?_, ?_⟩
    · intro segment hsegment
      rcases List.mem_cons.1 hsegment with rfl | hsegment
      · rcases hmore.library with rfl | hplain
        · decide
        · exact hword _ hplain
      · exact hword _ (hmore.names segment hsegment)
    · intro hcrate
      exact (hmore.names "crate" hcrate).ne (by decide) rfl
  · refine ⟨Segments.split_join (h.ne_nil rfl) fun name hname => (h.plain name hname).not_colon, ?_, ?_⟩
    · intro segment hsegment
      exact hword _ (h.plain segment hsegment)
    · intro hcrate
      exact (h.plain "crate" (List.mem_of_mem_tail hcrate)).ne (by decide) rfl

/-- A path that was read is read as it is. -/
theorem canonicalize?_split (hmodule : IsModule library names) (hchild : library ∉ children) {start : Start}
    (h : Written start rest) {path : String}
    (hpath : canonicalize? (start.words ++ rest) (Segments.join (library :: names)) children = some path) :
    canonicalize? (Segments.split path) (Segments.join (library :: names)) children = some path := by
  by_cases hstart : ∃ more, start = .hereAbove more
  · -- the module stands before what is read, and its library is read as it is
    obtain ⟨more, rfl⟩ := hstart
    rw [canonicalize?_hereAbove children hmodule more, Option.some.injEq] at hpath
    subst hpath
    rw [hmodule.split_supers h.plain, List.cons_append]
    exact canonicalize?_of_library children hmodule hchild _
  · have hother : ∀ more, start ≠ .hereAbove more := fun more heq => hstart ⟨more, heq⟩
    rw [canonicalize?_eq_from? children hmodule h hother, Option.map_eq_some_iff] at hpath
    obtain ⟨segments, hfrom, rfl⟩ := hpath
    rw [(split_of_from? children hmodule h hfrom).1]
    rcases plain_of_from? children hmodule h hfrom with ⟨more, rfl, -⟩ | ⟨rfl, rfl, hnot⟩
    · exact canonicalize?_of_library children hmodule hchild more
    · obtain ⟨first, more, rfl⟩ := List.exists_cons_of_ne_nil (h.ne_nil rfl)
      have hfirst : IsPlain first := h.plain first List.mem_cons_self
      have hkept : first ∉ children := hnot
      rw [canonicalize?_of_plain children hfirst, if_neg hkept]

/-- **Relative paths.** Inside a module, a path is read as what its beginning means if and only if the
beginning is not `self` with a `super` after it: then `super` is left standing as a name below the module.
What is read otherwise has no word for a beginning left in it, but for the library under analysis in front,
and there is nothing if and only if the beginning leads above the library. Whatever is read is read again as
it is, unless a child module has the name of the library. -/
theorem canonicalize?_written (hmodule : IsModule library names) {start : Start} (h : Written start rest) :
    let module := Segments.join (library :: names)
    (canonicalize? (start.words ++ rest) module children =
        (start.from? library names children rest).map Segments.join ↔ ∀ more, start ≠ .hereAbove more) ∧
    (∀ more, start = .hereAbove more → canonicalize? (start.words ++ rest) module children =
      some (Segments.join (library :: names ++ (List.replicate (more + 1) "super" ++ rest)))) ∧
    (∀ segments, start.from? library names children rest = some segments →
      Segments.split (Segments.join segments) = segments ∧
        (∀ segment ∈ segments, segment ≠ "self" ∧ segment ≠ "super") ∧ "crate" ∉ segments.tail) ∧
    (start.from? library names children rest = none ↔
      ∃ more, (start = .above more ∨ start = .hereAbove more) ∧ names.length < more + 1) ∧
    (library ∉ children → ∀ path, canonicalize? (start.words ++ rest) module children = some path →
      canonicalize? (Segments.split path) module children = some path) := by
  intro module
  refine ⟨⟨?_, canonicalize?_eq_from? children hmodule h⟩, ?_, ?_, ?_, ?_⟩
  · rintro heq more rfl
    -- the path that is read has more segments than the module, the one that is meant has not so many names
    rw [canonicalize?_hereAbove children hmodule more, eq_comm, Option.map_eq_some_iff] at heq
    obtain ⟨segments, hfrom, hjoin⟩ := heq
    have hclean := split_of_from? children hmodule h hfrom
    have hsuper : "super" ∈ segments := by
      rw [← hclean.1, hjoin, hmodule.split_supers h.plain]
      simp
    exact (hclean.2.1 "super" hsuper).2 rfl
  · rintro more rfl
    exact canonicalize?_hereAbove children hmodule more
  · intro segments hfrom
    exact split_of_from? children hmodule h hfrom
  · cases start <;> simp [Start.from?]
  · intro hchild path hpath
    exact canonicalize?_split children hmodule hchild h hpath

/-- Inside `billing::invoice::lines`, the path `super::super::Tax` is read as `billing::Tax`, and again. -/
theorem canonicalize?_written_invoice :
    IsModule "billing" ["invoice", "lines"] ∧ Written (.above 1) ["Tax"] ∧
      canonicalize? ["super", "super", "Tax"] "billing::invoice::lines" ["parts"] = some "billing::Tax" ∧
      canonicalize? (Segments.split "billing::Tax") "billing::invoice::lines" ["parts"] =
        some "billing::Tax" := by
  have hmodule : IsModule "billing" ["invoice", "lines"] := ⟨.inr (by decide), by decide⟩
  have hwritten : Written (.above 1) ["Tax"] := ⟨by decide, nofun⟩
  obtain ⟨hread, -, -, -, hagain⟩ := canonicalize?_written ["parts"] hmodule hwritten
  have htax : canonicalize? ["super", "super", "Tax"] "billing::invoice::lines" ["parts"] =
      some "billing::Tax" := hread.2 (by simp)
  exact ⟨hmodule, hwritten, htax, hagain (by decide) _ htax⟩

/-- Not every path is read as its beginning means: inside `crate::a` the path `self::super::Y` means
`crate::Y`, but it is read as `crate::a::super::Y`. -/
theorem canonicalize?_ne_meaning :
    ¬ ∀ (library : String) (names children rest : List String) (start : Start),
      IsModule library names → Written start rest →
      canonicalize? (start.words ++ rest) (Segments.join (library :: names)) children =
        (start.from? library names children rest).map Segments.join := by
  intro hall
  have hmodule : IsModule "crate" ["a"] := ⟨.inl rfl, by decide⟩
  have hwritten : Written (.hereAbove 0) ["Y"] := ⟨by decide, nofun⟩
  have hread := hall "crate" ["a"] [] ["Y"] (.hereAbove 0) hmodule hwritten
  have hmeant : (Start.from? "crate" ["a"] [] ["Y"] (.hereAbove 0)).map Segments.join = some "crate::Y" := rfl
  rw [canonicalize?_hereAbove [] hmodule 0, hmeant, Option.some.injEq] at hread
  exact absurd hread (by decide)

end PayloadSchema.ModulePath
