import PayloadSchema.Proofs.Metadata.Namespaces

/-!
# Items and tags

A tag of one of the three namespaces is a list of items (`IsTag`). What an item says of a field does not depend on
the tag that it stands in: items that can be read one by one may stand in one tag or in a tag each, with other tags
between them, and only their order counts (`FieldMetadata.ofTags_regroups`). Of several settings for one thing the
last one holds, and a description is looked for before any documentation (`FieldMetadata.ofLast`).
-/

namespace PayloadSchema

open Source Metadata Metadata.Reader

namespace Metadata

/-! ## What settings amount to -/

/-- What is found in the last of the settings in which something is found. -/
def lastOf {α : Type} (find : Setting → Option α) (settings : List Setting) : Option α :=
  settings.reverse.findSome? find

/-- The last setting that says something counts. -/
theorem lastOf_concat {α : Type} (find : Setting → Option α) (settings : List Setting) (setting : Setting) :
    lastOf find (settings ++ [setting]) = (find setting).or (lastOf find settings) := by
  rw [lastOf, List.reverse_append, List.reverse_singleton, List.singleton_append, List.findSome?_cons]
  cases find setting with
  | none => rfl
  | some a => rfl

end Metadata

namespace FieldMetadata

open Setting

/-- The metadata in which each thing is what the last setting for it says. -/
def ofLast (settings : List Setting) : FieldMetadata where
  rename := lastOf (fun | .rename name => some name | _ => none) settings
  ignore := settings.any fun | .ignore => true | _ => false
  omitEmpty := settings.any fun | .omitEmpty => true | _ => false
  flatten := settings.any fun | .flatten => true | _ => false
  required := settings.any fun | .required => true | _ => false
  format := lastOf (fun | .format name => some name | _ => none) settings
  pattern := lastOf (fun | .pattern text => some text | _ => none) settings
  minimum := lastOf (fun | .minimum bound => some bound | _ => none) settings
  maximum := lastOf (fun | .maximum bound => some bound | _ => none) settings
  minLength := lastOf (fun | .minLength bound => some bound | _ => none) settings
  maxLength := lastOf (fun | .maxLength bound => some bound | _ => none) settings
  oneOf := lastOf (fun | .oneOf values => some values | _ => none) settings
  description := lastOf (fun | .description text => some text | _ => none) settings
  sample := lastOf (fun | .sample value => some value | _ => none) settings

/-- One more setting is the last one for its thing. -/
theorem ofLast_concat (settings : List Setting) (setting : Setting) :
    ofLast (settings ++ [setting]) = (ofLast settings).set setting := by
  unfold ofLast
  -- for each thing the new setting is looked at first, and only one thing is what it is for
  simp only [lastOf_concat, List.any_append, List.any_cons, List.any_nil, Bool.or_false]
  cases setting <;> simp [set]

/-- Settings that are made one after the other are the last of each kind. -/
theorem foldl_set_eq_ofLast (settings : List Setting) : settings.foldl set {} = ofLast settings := by
  induction settings using List.reverseRecOn with
  | nil => rfl
  | append_singleton settings setting ih =>
      rw [List.foldl_append, List.foldl_cons, List.foldl_nil, ih, ofLast_concat]

/-- Of the settings of one thing the last one holds; the documentation is for a field that has no description. -/
theorem ofSettings_eq (settings : List Setting) :
    ofSettings settings =
      { ofLast settings with
        description := (ofLast settings).description.or (joinLines (documentation settings)) } := by
  rw [ofSettings, foldl_set_eq_ofLast]

end FieldMetadata

/-! ## Lists of tags -/

namespace Metadata

/-- A tag that is no attribute, or one of another namespace, and no documentation. -/
def IsIdle (tag : String) : Prop :=
  ∀ m, Meta.ofText? tag = some m → ∀ word ∈ ["serde", "validate", "schema", "doc"], m.name.is word = false

/-- An idle tag says nothing. -/
theorem IsIdle.ofTag_eq {tag : String} (h : IsIdle tag) : Setting.ofTag tag = [] := by
  rw [Setting.ofTag]
  cases hmeta : Meta.ofText? tag with
  | none => rfl
  | some m =>
      have hname := h m hmeta
      rw [Option.elim_some]
      -- An idle tag belongs to none of the namespaces, so each form it can have yields nothing.
      cases m with
      | path path => rfl
      | list path tokens =>
          have hserde : path.is "serde" = false := hname "serde" (by simp)
          have hvalidate : path.is "validate" = false := hname "validate" (by simp)
          have hschema : path.is "schema" = false := hname "schema" (by simp)
          simp [Setting.ofMeta, hserde, hvalidate, hschema]
      | value path e =>
          have hdoc : path.is "doc" = false := hname "doc" (by simp)
          have hnone : documentation? (.value path e) = none := by
            unfold documentation?
            split
            · next hvalue =>
                cases hvalue
                rw [hdoc, if_neg Bool.false_ne_true]
            · rfl
          rw [Setting.ofMeta, hnone]
          · rfl
          · intro path tokens hlist
            cases hlist

/-- A list of tags that says the same in other tags: a tag of items that can be read one by one is replaced by a tag
for each of them, or an idle tag is put in. -/
inductive Regroups : List String → List String → Prop where
  | split {before singles after : List String} {tag : String} {ns : Namespace} {items : List (List Token)}
    (hitems : ∀ i ∈ items, Accepted ns i) (htag : IsTag ns items tag)
    (hsingles : List.Forall₂ (fun item single => IsTag ns [item] single) items singles) :
    Regroups (before ++ tag :: after) (before ++ singles ++ after)
  | idle {before after : List String} {tag : String} (h : IsIdle tag) :
    Regroups (before ++ after) (before ++ tag :: after)

/-- Tags with one item each say what the items do. -/
theorem flatMap_ofTag_singles {ns : Namespace} {items : List (List Token)} {singles : List String}
    (hitems : ∀ i ∈ items, Accepted ns i)
    (hsingles : List.Forall₂ (fun item single => IsTag ns [item] single) items singles) :
    singles.flatMap Setting.ofTag = items.flatMap fun i => (ns.read i).1 := by
  induction hsingles with
  | nil => rfl
  | cons hsingle hsingles ih =>
      rcases List.forall_mem_cons.1 hitems with ⟨hitem, hitems⟩
      rw [List.flatMap_cons, List.flatMap_cons, ih hitems,
        ofTag_of_accepted (List.forall_mem_singleton.2 hitem) hsingle, List.flatMap_singleton]

/-- Tags that are grouped in another way say the same. -/
theorem Regroups.flatMap_ofTag {tags tags' : List String} (h : Regroups tags tags') :
    tags'.flatMap Setting.ofTag = tags.flatMap Setting.ofTag := by
  cases h with
  | split hitems htag hsingles =>
      rw [List.flatMap_append, List.flatMap_append, List.flatMap_append, List.flatMap_cons,
        flatMap_ofTag_singles hitems hsingles, ofTag_of_accepted hitems htag, List.append_assoc]
  | idle h => rw [List.flatMap_append, List.flatMap_append, List.flatMap_cons, h.ofTag_eq, List.nil_append]

end Metadata

namespace FieldMetadata

/-- **How items are grouped into tags does not matter.** In a list of tags, one whose items can be read one by one
may be replaced by a tag for each of its items, and tags that are no attributes or of other namespaces may be put in,
without changing the metadata. In the metadata each thing is what the last setting for it says, in the order of the
tags and of the items in them, and the documentation is the description only if there is no other one. -/
theorem ofTags_regroups :
    (∀ tags tags', Regroups tags tags' → ofTags tags' = ofTags tags) ∧
      ∀ tags, ofTags tags =
        { ofLast (tags.flatMap Setting.ofTag) with
          description := (ofLast (tags.flatMap Setting.ofTag)).description.or
            (joinLines (documentation (tags.flatMap Setting.ofTag))) } := by
  constructor
  · intro tags tags' h
    rw [ofTags_eq, ofTags_eq, h.flatMap_ofTag]
  · intro tags
    rw [ofTags_eq, ofSettings_eq]

/-- Three items in one tag, behind a line of documentation. -/
theorem ofTags_regroups_mail :
    Regroups ["doc = \"A mail.\"", "validate(required, length(min = 1, max = 5), email)"]
        ["doc = \"A mail.\"", "validate(required)", "validate(length(min = 1, max = 5))", "validate(email)"] ∧
      ofTags ["doc = \"A mail.\"", "validate(required)", "validate(length(min = 1, max = 5))", "validate(email)"] =
        ofTags ["doc = \"A mail.\"", "validate(required, length(min = 1, max = 5), email)"] := by
  have hbound : ∀ word n, IsItem [.name word, .punct '=' false, .literal (.integer n "")] :=
    fun word n => .literal (.word word) false (.literal (.integer n ""))
  have hbounds : Separated [[.name "min", .punct '=' false, .literal (.integer 1 "")],
      [.name "max", .punct '=' false, .literal (.integer 5 "")]] _ := .cons _ false (.last _)
  have hlength := IsItem.arguments (.word "length")
    (List.forall_mem_cons.2 ⟨hbound "min" 1, List.forall_mem_singleton.2 (hbound "max" 5)⟩) hbounds
  -- The bounds stay together: they are the arguments of one item.
  have haccepted : Accepted .validate _ := ⟨hlength, by decide +kernel⟩
  have hword : ∀ word, (Namespace.validate.read [.name word]).2 = true → Accepted .validate [.name word] :=
    fun word hread => ⟨.bare (.word word), hread⟩
  have hitems := List.forall_mem_cons.2 ⟨hword "required" rfl,
    List.forall_mem_cons.2 ⟨haccepted, List.forall_mem_singleton.2 (hword "email" rfl)⟩⟩
  have hregroups : Regroups (["doc = \"A mail.\""] ++ "validate(required, length(min = 1, max = 5), email)" :: [])
      (["doc = \"A mail.\""] ++
        ["validate(required)", "validate(length(min = 1, max = 5))", "validate(email)"] ++ []) := by
    refine .split hitems ⟨_, .cons _ false (.cons _ false (.last _)), rfl⟩ (.cons ?_ (.cons ?_ (.cons ?_ .nil)))
    · exact ⟨_, .last _, rfl⟩
    · exact ⟨_, .last _, rfl⟩
    · exact ⟨_, .last _, rfl⟩
  exact ⟨hregroups, ofTags_regroups.1 _ _ hregroups⟩

end FieldMetadata

end PayloadSchema
