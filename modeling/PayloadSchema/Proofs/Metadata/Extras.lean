import PayloadSchema.Proofs.Metadata.Namespaces

/-!
# Items that say nothing

A tag of constraints may have more in it than is used: an item with a key that is not known, arguments behind the key
of a rule that needs none, or one more argument among those of a rule (`Extra`). What is not used is passed over, so
that it does not hide the items after it.

There is one exception. The key `required` takes nothing of what stands behind it, so its arguments are left over,
and the items after them are not reached (`IsLeftOver`).

* `FieldMetadata.ofTags_extra` — a tag with an extra, and the tag without it;
* `FieldMetadata.not_ofTags_extra` — arguments of `required` hide the items after it.
-/

namespace PayloadSchema

open Source Metadata Metadata.Reader

namespace Metadata

/-! ## Extras -/

/-- The keys of the items that say something of the values of a field. -/
def ruleKeys : List String := ["required", "email", "url", "length", "range", "regex", "pattern", "one_of"]

/-- The keys that say something among the arguments of a rule. -/
def argumentKeys (path : MetaPath) : List String :=
  if path.is "length" then ["min", "max", "equal"] else if path.is "range" then ["min", "max"] else []

/-- What stands behind a key, and the same with more than is used: arguments instead of nothing, or one more argument
with an unknown key anywhere among the others. -/
inductive More (path : MetaPath) : List Token → List Token → Prop where
  | arguments {inner : List Token} {items : List (List Token)} (hitems : ∀ i ∈ items, IsItem i)
    (hinner : Separated items inner) : More path [] [.group .parenthesis inner]
  | argument {key value inner inner' : List Token} {named : MetaPath} {before after : List (List Token)}
    (hkey : IsKey key named) (hunknown : ∀ word ∈ argumentKeys path, named.is word = false) (hvalue : IsValue value)
    (hitems : ∀ i ∈ before ++ after, IsItem i) (hinner : Separated (before ++ after) inner)
    (hinner' : Separated (before ++ (key ++ value) :: after) inner') :
    More path [.group .parenthesis inner] [.group .parenthesis inner']

/-- An item with more in it than is used, and what stands in its place without that: nothing instead of an item with
an unknown key, or the same key with less behind it. -/
inductive Extra : List (List Token) → List Token → Prop where
  | item {key value : List Token} {path : MetaPath} (hkey : IsKey key path)
    (hunknown : ∀ word ∈ ruleKeys, path.is word = false) (hvalue : IsValue value) : Extra [] (key ++ value)
  | more {key value value' : List Token} {path : MetaPath} (hkey : IsKey key path) (hmore : More path value value') :
    Extra [key ++ value] (key ++ value')

/-- The key `required` with arguments, which it does not take. -/
def IsLeftOver (extra : List Token) : Prop := ∃ inner, extra = [.name "required", .group .parenthesis inner]

variable {path : MetaPath} {value value' : List Token}

/-- What stands before an extra is a value. -/
theorem More.isValue (h : More path value value') : IsValue value := by
  cases h with
  | arguments hitems hinner => exact .nothing
  | argument hkey hunknown hvalue hitems hinner hinner' => exact .arguments hitems hinner

/-- A list of items with another one in it is a list of items. -/
theorem forall_isItem_insert {before after : List (List Token)} {extra : List Token}
    (hitems : ∀ i ∈ before ++ after, IsItem i) (hextra : IsItem extra) : ∀ i ∈ before ++ extra :: after, IsItem i := by
  rcases List.forall_mem_append.1 hitems with ⟨hbefore, hafter⟩
  exact List.forall_mem_append.2 ⟨hbefore, List.forall_mem_cons.2 ⟨hextra, hafter⟩⟩

/-- With more behind a key there is a list of items behind it. -/
theorem More.exists_inner (h : More path value value') :
    ∃ inner, value' = [.group .parenthesis inner] ∧ ∃ items, (∀ i ∈ items, IsItem i) ∧ Separated items inner := by
  cases h with
  | arguments hitems hinner => exact ⟨_, rfl, _, hitems, hinner⟩
  | argument hkey hunknown hvalue hitems hinner hinner' =>
      have hextra := isItem_iff.2 ⟨_, _, _, hkey, hvalue, rfl⟩
      exact ⟨_, rfl, _, forall_isItem_insert hitems hextra, hinner'⟩

theorem More.isValue' (h : More path value value') : IsValue value' := by
  rcases h.exists_inner with ⟨inner, rfl, items, hitems, hinner⟩
  exact .arguments hitems hinner

/-- Neither value stands behind an equals sign. -/
theorem More.unassigned (h : More path value value') : Look.mark "=" value = false ∧ Look.mark "=" value' = false := by
  cases h with
  | arguments => exact ⟨rfl, rfl⟩
  | argument => exact ⟨rfl, rfl⟩

/-- An extra is an item. -/
theorem Extra.isItem {place : List (List Token)} {extra : List Token} (h : Extra place extra) : IsItem extra := by
  cases h with
  | item hkey hunknown hvalue => exact isItem_iff.2 ⟨_, _, _, hkey, hvalue, rfl⟩
  | more hkey hmore => exact isItem_iff.2 ⟨_, _, _, hkey, hmore.isValue', rfl⟩

/-! ## Unknown keys -/

/-- An unknown rule is passed over. -/
theorem validateItem_of_unknown (h : ∀ word ∈ ruleKeys, path.is word = false) (g : Grammar) :
    validateItem g path = skipValue g := by
  simp only [ruleKeys, List.forall_mem_cons] at h
  rcases h with ⟨hrequired, hemail, hurl, hlength, hrange, hregex, hpattern, honeOf, -⟩
  simp [validateItem, hrequired, hemail, hurl, hlength, hrange, hregex, hpattern, honeOf]

/-- An unknown argument of a length is passed over. -/
theorem lengthItem_of_unknown {named : MetaPath} (hlength : path.is "length" = true)
    (h : ∀ word ∈ argumentKeys path, named.is word = false) (g : Grammar) : lengthItem g named = skipValue g := by
  simp only [argumentKeys, if_pos hlength, List.forall_mem_cons] at h
  rcases h with ⟨hmin, hmax, hequal, -⟩
  simp [lengthItem, hmin, hmax, hequal]

/-- An unknown argument of a range is passed over. -/
theorem rangeItem_of_unknown {named : MetaPath} (hlength : path.is "length" = false) (hrange : path.is "range" = true)
    (h : ∀ word ∈ argumentKeys path, named.is word = false) (g : Grammar) : rangeItem g named = skipValue g := by
  simp only [argumentKeys, hlength, Bool.false_eq_true, if_false, if_pos hrange, List.forall_mem_cons] at h
  rcases h with ⟨hmin, hmax, -⟩
  simp [rangeItem, hmin, hmax]

/-- An item whose value is passed over says nothing. -/
theorem comes_of_skipped {item : Grammar → MetaPath → Reader Setting Unit} {key : List Token} (hkey : IsKey key path)
    (hvalue : IsValue value) (h : ∀ g, item g path = skipValue g) : Comes item [key ++ value] [] true := by
  have hskip : Reads (fun g => item g path) value () [] [] := by
    intro g
    beta_reduce
    rw [h g]
    exact reads_skipValue hvalue g
  exact .more (hskip.entry hkey hvalue) .done

/-! ## Rules with more behind them -/

/-- Either one of two values cannot be read, or the other says the same. -/
def Indifferent (r : Grammar → Reader Setting Unit) (value value' : List Token) : Prop :=
  (∃ yielded, Fails r value yielded) ∨ ∃ yielded, Reads r value () [] yielded ∧ Reads r value' () [] yielded

/-- A choice between readers is indifferent if both are. -/
theorem Indifferent.ite {r r' : Grammar → Reader Setting Unit} {p : Bool} (hr : p = true → Indifferent r value value')
    (hr' : p = false → Indifferent r' value value') :
    Indifferent (fun g => if p = true then r g else r' g) value value' := by
  cases p with
  | true => exact hr rfl
  | false => exact hr' rfl

/-- Passing over a value makes no difference between the two. -/
theorem More.indifferent_skipValue (h : More path value value') : Indifferent (fun g => skipValue g) value value' :=
  .inr ⟨[], reads_skipValue h.isValue, reads_skipValue h.isValue'⟩

/-- A setting and a value that is passed over make no difference between the two. -/
theorem More.indifferent_yield (h : More path value value') (setting : Setting) :
    Indifferent (fun g => do
      Reader.yield setting
      skipValue g) value value' := by
  have hskipped (v : List Token) (hv : IsValue v) : Reads (fun g => do
      Reader.yield setting
      skipValue g) v () [] [setting] := (reads_yield setting v).bind (reads_skipValue hv)
  exact .inr ⟨[setting], hskipped value h.isValue, hskipped value' h.isValue'⟩

/-- A pattern that is not stated behind an equals sign makes no difference between the two. -/
theorem More.indifferent_pattern (h : More path value value') :
    Indifferent (fun g => do
      if ← valued then Reader.yield (.pattern (← text)) else skipValue g) value value' := by
  have hskip : ∀ v, IsValue v → Look.mark "=" v = false → Reads (fun g => (do
      if ← valued then Reader.yield (.pattern (← text)) else skipValue g : Reader Setting Unit)) v () [] [] := by
    intro v hv hmark
    have hvalued : Reads (fun _ => (valued : Reader Setting Bool)) v (Look.mark "=" v) v [] := reads_valued hv
    rw [hmark] at hvalued
    exact hvalued.bind (reads_skipValue hv)
  obtain ⟨hmark, hmark'⟩ := h.unassigned
  exact .inr ⟨[], hskip value h.isValue hmark, hskip value' h.isValue' hmark'⟩

/-- A list of choices needs an equals sign, and there is none in either value. -/
theorem More.indifferent_oneOf (h : More path value value') :
    Indifferent (fun _ => do Reader.yield (.oneOf (splitList (← text)))) value value' := by
  have htext : Fails (fun _ => (text : Reader Setting String)) value [] :=
    fails_unassigned h.isValue h.unassigned.1 fun _ => Parser.text
  exact .inl ⟨[], htext.bind⟩

/-- Arguments with unknown keys are passed over. -/
theorem More.indifferent_inParentheses (h : More path value value') {item : Grammar → MetaPath → Reader Setting Unit}
    (hitem : ∀ named, Decided fun g => item g named)
    (hskip : ∀ named, (∀ word ∈ argumentKeys path, named.is word = false) → ∀ g, item g named = skipValue g) :
    Indifferent (fun g => inParentheses (item g)) value value' := by
  cases h with
  | arguments hitems hinner => exact .inl ⟨[], fails_unopened .nothing rfl⟩
  | @argument key value inner inner' named before after hkey hunknown hvalue hitems hinner hinner' =>
      by_cases hne : before ++ after = []
      · -- the parentheses were empty, which is not read
        rw [hne] at hinner
        cases hinner
        exact .inl ⟨[], fails_emptied⟩
      · rcases exists_comes hitem hitems with ⟨yielded, whole, hcomes⟩
        cases whole with
        | false => exact .inl ⟨yielded, hcomes.fails_inParentheses hinner hitems hne⟩
        | true =>
            -- all of the other arguments are read, so one that is passed over may stand anywhere among them
            have hextra := isItem_iff.2 ⟨_, _, _, hkey, hvalue, rfl⟩
            have hitems' := forall_isItem_insert hitems hextra
            have hcomes' := hcomes.insert (comes_of_skipped hkey hvalue (hskip named hunknown))
            have hreads := hcomes.reads_inParentheses hinner hitems hne
            have hreads' := hcomes'.reads_inParentheses hinner' hitems' (by simp)
            exact .inr ⟨yielded, hreads, hreads'⟩

/-- Every rule but `required` passes over what it does not need. -/
theorem More.indifferent_validateItem (h : More path value value') (hrequired : path.is "required" = false) :
    Indifferent (fun g => validateItem g path) value value' := by
  unfold validateItem
  simp only [hrequired, Bool.false_eq_true, if_false]
  -- `email` and `url` yield their setting at once
  refine .ite (fun _ => h.indifferent_yield _) ?_
  intro _
  refine .ite (fun _ => h.indifferent_yield _) ?_
  intro _
  -- only the next two rules look at their arguments
  refine .ite ?_ ?_
  · intro hlength
    apply h.indifferent_inParentheses decided_lengthItem
    intro _
    exact lengthItem_of_unknown hlength
  · intro hlength
    refine .ite ?_ ?_
    · intro hrange
      apply h.indifferent_inParentheses decided_rangeItem
      intro _
      exact rangeItem_of_unknown hlength hrange
    · intro _
      refine .ite (fun _ => h.indifferent_pattern) ?_
      intro _
      exact .ite (fun _ => h.indifferent_oneOf) fun _ => h.indifferent_skipValue

/-- A rule that can be read says the same with more behind it, unless it is `required`. -/
theorem More.comes (h : More path value value') {key : List Token} (hkey : IsKey key path)
    (haccepted : Accepted .validate (key ++ value)) (hrequired : path.is "required" = false) :
    Comes Namespace.validate.item [key ++ value'] (Namespace.validate.read (key ++ value)).1 true := by
  have hitems : ∀ i ∈ [key ++ value], IsItem i := List.forall_mem_singleton.2 haccepted.1
  rcases h.indifferent_validateItem hrequired with ⟨yielded, hfails⟩ | ⟨yielded, hreads, hreads'⟩
  · -- with less behind it the rule could not be read
    have hentry : Fails (fun g => Reader.entry (Namespace.validate.item g)) (key ++ value) yielded :=
      Fails.entry hkey h.isValue hfails
    have hcomes : Comes Namespace.validate.item [key ++ value] yielded false := .stop (.inl hentry)
    have hread := haccepted.2
    rw [hcomes.read_eq (.last _) hitems] at hread
    exact absurd hread Bool.false_ne_true
  · have hentry := Reads.entry hkey h.isValue hreads
    have hentry' := Reads.entry hkey h.isValue' hreads'
    have hcomes : Comes Namespace.validate.item [key ++ value] (yielded ++ []) true := .more hentry .done
    rw [hcomes.read_eq (.last _) hitems]
    exact .more hentry' .done

/-! ## Arguments of `required` -/

/-- A key that is a word is its single name. -/
theorem key_of_is {key : List Token} {word : String} (hkey : IsKey key path) (h : path.is word = true) :
    key = [.name word] := by
  cases hkey with
  | plain first more =>
      have hwords : first :: more.map (·.2) = [word] := by simpa [MetaPath.is] using h
      rcases List.cons.inj hwords with ⟨rfl, hmore⟩
      rw [List.map_eq_nil_iff.1 hmore, List.flatMap_nil]
  | rooted joint first more => simp [MetaPath.is] at h

/-- No key goes on with a group. -/
theorem key_of_append {key inner : List Token} {word : String} (hkey : IsKey key path)
    (h : key ++ value = [.name word, .group .parenthesis inner]) : key = [.name word] ∧ path.is word = true := by
  cases hkey with
  | plain first more =>
      rcases List.cons.inj h with ⟨hfirst, hmore⟩
      cases hfirst
      cases more with
      | nil => exact ⟨rfl, by simp [MetaPath.is]⟩
      | cons next more => cases hmore
  | rooted joint first more => cases h

/-- The arguments of `required` stay where they are. -/
theorem stops_required {key inner : List Token} (hkey : IsKey key path) (hinner : IsValue [.group .parenthesis inner])
    (h : path.is "required" = true) :
    Stops Namespace.validate.item (key ++ [.group .parenthesis inner]) [Setting.required] := by
  have hyield : Reads (fun g => Namespace.validate.item g path) [.group .parenthesis inner] ()
      [.group .parenthesis inner] [Setting.required] := by
    intro g
    change ReadsLiterals g → ∀ c settings rest, _ → _ → validateItem g path (c, settings) = _
    unfold validateItem
    rw [if_pos h]
    exact reads_yield Setting.required _ g
  exact .inr ⟨_, List.cons_ne_nil _ _, hinner, hyield.entry hkey hinner⟩

/-- So it cannot be read with arguments. -/
theorem not_accepted_required {key inner : List Token} (hkey : IsKey key path)
    (hinner : IsValue [.group .parenthesis inner]) (h : path.is "required" = true) :
    ¬ Accepted .validate (key ++ [.group .parenthesis inner]) := by
  rintro ⟨hitem, hread⟩
  have hcomes : Comes Namespace.validate.item [key ++ [.group .parenthesis inner]] [Setting.required] false :=
    .stop (stops_required hkey hinner h)
  rw [hcomes.read_eq (.last _) (List.forall_mem_singleton.2 hitem)] at hread
  exact Bool.false_ne_true hread

/-! ## What extras come to -/

variable {place : List (List Token)} {extra : List Token}

/-- An extra that is not left over says the same as what stands in its place without it. -/
theorem Extra.comes (h : Extra place extra) (hplace : ∀ i ∈ place, Accepted .validate i) (hnot : ¬ IsLeftOver extra) :
    Comes Namespace.validate.item [extra] (place.flatMap fun i => (Namespace.validate.read i).1) true := by
  cases h with
  | item hkey hunknown hvalue => exact comes_of_skipped hkey hvalue (validateItem_of_unknown hunknown)
  | @more key value value' path hkey hmore =>
      have hrequired : path.is "required" = false := by
        rw [Bool.eq_false_iff]
        intro hrequired
        rcases hmore.exists_inner with ⟨inner, rfl, -⟩
        exact hnot ⟨inner, by rw [key_of_is hkey hrequired]; rfl⟩
      rw [List.flatMap_singleton]
      exact hmore.comes hkey (hplace _ List.mem_cons_self) hrequired

/-- An extra that is left over says that the field is required, and nothing after it is reached. -/
theorem Extra.stops (h : Extra place extra) (hplace : ∀ i ∈ place, Accepted .validate i) (hleft : IsLeftOver extra) :
    place = [[.name "required"]] ∧ Stops Namespace.validate.item extra [Setting.required] := by
  rcases hleft with ⟨inner, hextra⟩
  -- An unknown key is skipped with its arguments; only those of `required` can be left unread.
  cases h with
  | item hkey hunknown hvalue =>
      have hrequired := (key_of_append hkey hextra).2
      rw [hunknown "required" List.mem_cons_self] at hrequired
      exact absurd hrequired Bool.false_ne_true
  | more hkey hmore =>
      rcases key_of_append hkey hextra with ⟨rfl, hrequired⟩
      have hinner := hmore.isValue
      have hinner' := hmore.isValue'
      cases hmore with
      | arguments => exact ⟨rfl, stops_required hkey hinner' hrequired⟩
      | argument =>
          have haccepted := hplace _ List.mem_cons_self
          exact absurd haccepted (not_accepted_required hkey hinner hrequired)

end Metadata

namespace FieldMetadata

/-- **What is not used hides nothing**, except behind `required`. A tag whose items can all be read one by one amounts
to the same if one more item with an unknown key is put into it anywhere, if a key that stands alone gets arguments, or
if the arguments of a key get one more with an unknown key. But `required` with arguments is the last item that counts:
the tag then amounts to what the items up to there do. -/
theorem ofTags_extra {before place after : List (List Token)} {extra : List Token} {tag tag' : String}
    (hextra : Extra place extra) (hitems : ∀ i ∈ before ++ place ++ after, Accepted .validate i)
    (htag : IsTag .validate (before ++ place ++ after) tag) (htag' : IsTag .validate (before ++ extra :: after) tag') :
    (¬ IsLeftOver extra → ofTags [tag'] = ofTags [tag]) ∧
      (IsLeftOver extra → ∀ cut, IsTag .validate (before ++ place) cut → ofTags [tag'] = ofTags [cut]) := by
  rcases List.forall_mem_append.1 hitems with ⟨hupto, hafter⟩
  rcases List.forall_mem_append.1 hupto with ⟨hbefore, hplace⟩
  have hitems' : ∀ i ∈ before ++ extra :: after, IsItem i := by
    have hothers : ∀ i ∈ before ++ after, IsItem i := by
      intro i hi
      rcases List.mem_append.1 hi with hi | hi
      · exact (hbefore i hi).1
      · exact (hafter i hi).1
    exact forall_isItem_insert hothers hextra.isItem
  constructor
  · intro hnot
    -- the items before the extra, the extra itself, and the items after it
    have hcomes := (comes_of_accepted hbefore).append ((hextra.comes hplace hnot).append (comes_of_accepted hafter))
    have hsettings := hcomes.ofTag_eq hitems' htag'
    rw [ofTags_eq, ofTags_eq, List.flatMap_singleton, List.flatMap_singleton, hsettings, ofTag_of_accepted hitems htag,
      List.flatMap_append, List.flatMap_append, List.append_assoc]
  · intro hleft cut hcut
    rcases hextra.stops hplace hleft with ⟨rfl, hstops⟩
    -- nothing of the items after the extra is read, whatever they are
    have hrest : Comes Namespace.validate.item (extra :: after) [Setting.required] false := .stop hstops
    have hsettings := ((comes_of_accepted hbefore).append hrest).ofTag_eq hitems' htag'
    have hrequired : (Namespace.validate.read [.name "required"]).1 = [Setting.required] := rfl
    rw [ofTags_eq, ofTags_eq, List.flatMap_singleton, List.flatMap_singleton, hsettings, ofTag_of_accepted hupto hcut,
      List.flatMap_append, List.flatMap_singleton, hrequired]

/-! ## An address that is required -/

theorem accepted_required_email : ∀ i ∈ [[.name "required"], [.name "email"]], Accepted .validate i := by
  refine List.forall_mem_cons.2 ⟨?_, List.forall_mem_singleton.2 ?_⟩
  · exact ⟨.bare (.word "required"), rfl⟩
  · exact ⟨.bare (.word "email"), rfl⟩

/-- The key `required` with a message, which is left over. -/
theorem extra_message : Extra [[.name "required"]]
    [.name "required", .group .parenthesis [.name "message", .punct '=' false, .literal (.string "x")]] := by
  have hmessage : IsItem [.name "message", .punct '=' false, .literal (.string "x")] :=
    .literal (.word "message") false (.literal (.string "x"))
  exact .more (.word "required") (.arguments (List.forall_mem_singleton.2 hmessage) (.last _))

/-- An item with an unknown key before the last of two items, and a message behind the first one. -/
theorem ofTags_extra_email :
    ofTags ["validate(required, custom(function = \"check\"), email)"] = ofTags ["validate(required, email)"] ∧
      ofTags ["validate(required(message = \"x\"), email)"] = ofTags ["validate(required)"] := by
  have hfunction : IsItem [.name "function", .punct '=' false, .literal (.string "check")] :=
    .literal (.word "function") false (.literal (.string "check"))
  -- An unknown key with arguments is skipped whole.
  have hcustom : Extra [] ([.name "custom"] ++ [.group .parenthesis _]) :=
    .item (.word "custom") (by decide) (.arguments (List.forall_mem_singleton.2 hfunction) (.last _))
  constructor
  · have hextra := @ofTags_extra [[.name "required"]] [] [[.name "email"]] _ "validate(required, email)"
      "validate(required, custom(function = \"check\"), email)" hcustom accepted_required_email
      ⟨_, .cons _ false (.last _), rfl⟩ ⟨_, .cons _ false (.cons _ false (.last _)), rfl⟩
    apply hextra.1
    rintro ⟨inner, hinner⟩
    simp at hinner
  · have hextra := @ofTags_extra [] [[.name "required"]] [[.name "email"]] _ "validate(required, email)"
      "validate(required(message = \"x\"), email)" extra_message accepted_required_email
      ⟨_, .cons _ false (.last _), rfl⟩ ⟨_, .cons _ false (.last _), rfl⟩
    exact hextra.2 ⟨_, rfl⟩ "validate(required)" ⟨_, .last _, rfl⟩

/-- Behind the message of `required` the address is not reached. -/
theorem not_ofTags_extra :
    ¬ ∀ (before place after : List (List Token)) (extra : List Token) (tag tag' : String), Extra place extra →
      (∀ i ∈ before ++ place ++ after, Accepted .validate i) → IsTag .validate (before ++ place ++ after) tag →
      IsTag .validate (before ++ extra :: after) tag' → ofTags [tag'] = ofTags [tag] := by
  intro h
  have hsame := h [] [[.name "required"]] [[.name "email"]] _ "validate(required, email)"
    "validate(required(message = \"x\"), email)" extra_message accepted_required_email
    ⟨_, .cons _ false (.last _), rfl⟩ ⟨_, .cons _ false (.last _), rfl⟩
  have hreached : (ofTags ["validate(required, email)"]).format = some "email" := by decide +kernel
  have hhidden : (ofTags ["validate(required(message = \"x\"), email)"]).format = none := by decide +kernel
  rw [hsame, hreached] at hhidden
  exact absurd hhidden (Option.some_ne_none _)

end FieldMetadata

end PayloadSchema
