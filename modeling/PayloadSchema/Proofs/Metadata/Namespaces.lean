import PayloadSchema.Metadata.Basic
import PayloadSchema.Proofs.Metadata.Outcomes

/-!
# Namespaces of tags

A tag of one of the three namespaces is a list of items in parentheses (`IsTag`). Each of the namespaces reads its
items in its own way, but all of them read an item as far as its value goes (`decided_item`), so that an item says
the same of a field in whatever tag it stands.

* `Comes.ofTag_eq` — what a tag says, from what its items come to;
* `ofTag_of_accepted` — a tag of items that can be read one by one says what they say, in their order.
-/

namespace PayloadSchema

open Source Metadata.Reader

namespace Metadata

/-- The namespaces of tags whose items say something of a field. -/
inductive Namespace where
  | serde
  | validate
  | schema
deriving DecidableEq, Repr

/-- The word before the items of a tag. -/
def Namespace.word : Namespace → String
  | serde => "serde"
  | validate => "validate"
  | schema => "schema"

/-- What reads an item behind its key. -/
def Namespace.item : Namespace → Grammar → MetaPath → Reader Setting Unit
  | serde => serdeItem
  | validate => validateItem
  | schema => schemaItem

/-! ## Values and items -/

/-- The sides of a name are read in the same way whatever comes after them. -/
theorem decided_sides : Decided fun g => (name.sides g : Reader Setting (List (Bool × String))) := by
  have hside : ∀ path, Decided fun g => name.side g path := by
    intro path
    unfold name.side
    refine .ite ?_ (.ite ?_ decided_skipValue)
    · exact decided_text.bind fun _ => decided_yield _
    · exact decided_text.bind fun _ => decided_yield _
  -- the names are no settings themselves, and none of them counts if the list cannot be read
  intro value hvalue
  rcases decided_inParentheses hside value hvalue with ⟨_, left, names, hleft, h⟩ | ⟨names, h⟩
  · refine .inl ⟨names, left, [], hleft, ?_⟩
    intro g hg c settings rest hrest hc
    have hnames := h g hg c [] rest hrest hc
    unfold name.sides
    dsimp only at hnames ⊢
    rw [hnames, List.append_nil]
    rfl
  · refine .inr ⟨[], ?_⟩
    intro g hg c settings rest hrest hc
    rcases h g hg c [] rest hrest hc with ⟨c', hfail⟩
    refine ⟨c', ?_⟩
    unfold name.sides
    dsimp only at hfail ⊢
    rw [hfail, List.append_nil]

/-- A name is read in the same way whatever comes after it. -/
theorem decided_name : Decided fun g => (name g : Reader Setting (Option String)) := by
  unfold name
  refine decided_valued.bind ?_
  intro _
  refine .ite ?_ ?_
  · exact decided_text.bind fun _ => decided_pure _
  · exact decided_sides.bind fun _ => decided_pure _

/-- A sample is read in the same way whatever comes after it. -/
theorem decided_sample : Decided fun g => sample g := by
  refine decided_expression.bind ?_
  intro e
  cases sampleOf? e with
  | none => exact decided_failure
  | some v => exact decided_pure v

/-- An item on serialization comes to the same whatever comes after it. -/
theorem decided_serdeItem (path : MetaPath) : Decided fun g => serdeItem g path := by
  have hskipped (setting : Setting) : Decided fun g => (do
      Reader.yield setting
      skipValue g) := (decided_yield setting).bind fun _ => decided_skipValue
  unfold serdeItem
  -- the keys are asked for one after the other, `rename` first
  refine .ite ?_ ?_
  · -- a name without a side that is read renames nothing
    refine decided_name.bind ?_
    intro n
    cases n with
    | none => exact decided_pure ()
    | some n => exact decided_yield _
  refine .ite (decided_yield _) ?_
  refine .ite (hskipped _) ?_
  refine .ite (decided_yield _) ?_
  exact .ite (decided_yield _) decided_skipValue

/-- An argument of a length comes to the same whatever comes after it. -/
theorem decided_lengthItem (path : MetaPath) : Decided fun g => lengthItem g path := by
  have hone (setting : Nat → Setting) : Decided fun g => (do Reader.yield (setting (← Reader.length g))) :=
    decided_length.bind fun n => decided_yield (setting n)
  unfold lengthItem
  refine .ite (hone _) ?_
  refine .ite (hone _) ?_
  refine .ite ?_ decided_skipValue
  -- `equal` says both bounds
  refine decided_length.bind ?_
  intro n
  exact (decided_yield (Setting.minLength n)).bind fun _ => decided_yield (Setting.maxLength n)

/-- An argument of a range comes to the same whatever comes after it. -/
theorem decided_rangeItem (path : MetaPath) : Decided fun g => rangeItem g path := by
  have hone (setting : Binary64 → Setting) : Decided fun g => (do Reader.yield (setting (← number g))) :=
    decided_number.bind fun x => decided_yield (setting x)
  unfold rangeItem
  refine .ite (hone _) ?_
  exact .ite (hone _) decided_skipValue

/-- A rule comes to the same whatever comes after it. -/
theorem decided_validateItem (path : MetaPath) : Decided fun g => validateItem g path := by
  have hskipped (setting : Setting) : Decided fun g => (do
      Reader.yield setting
      skipValue g) := (decided_yield setting).bind fun _ => decided_skipValue
  have htext (setting : String → Setting) : Decided fun _ => (do Reader.yield (setting (← text))) :=
    decided_text.bind fun t => decided_yield (setting t)
  have hpattern : Decided fun g => (do
      if ← valued then Reader.yield (.pattern (← text)) else skipValue g : Reader Setting Unit) := by
    refine decided_valued.bind ?_
    intro _
    exact .ite (htext .pattern) decided_skipValue
  have hlength := decided_inParentheses decided_lengthItem
  have hrange := decided_inParentheses decided_rangeItem
  unfold validateItem
  refine .ite (decided_yield _) ?_
  refine .ite (hskipped _) ?_
  refine .ite (hskipped _) ?_
  -- only these rules look at what is behind their keys
  refine .ite hlength ?_
  refine .ite hrange ?_
  refine .ite hpattern ?_
  exact .ite (htext _) decided_skipValue

/-- An item on the schema comes to the same whatever comes after it. -/
theorem decided_schemaItem (path : MetaPath) : Decided fun g => schemaItem g path := by
  have htext (setting : String → Setting) : Decided fun _ => (do Reader.yield (setting (← text))) :=
    decided_text.bind fun t => decided_yield (setting t)
  have hlength (setting : Nat → Setting) : Decided fun g => (do Reader.yield (setting (← Reader.length g))) :=
    decided_length.bind fun n => decided_yield (setting n)
  have hnumber (setting : Binary64 → Setting) : Decided fun g => (do Reader.yield (setting (← number g))) :=
    decided_number.bind fun x => decided_yield (setting x)
  have hsample : Decided fun g => (do Reader.yield (.sample (← sample g))) :=
    decided_sample.bind fun v => decided_yield (Setting.sample v)
  unfold schemaItem
  -- each key yields its setting, at once or from a value of its kind
  refine .ite (htext _) ?_
  refine .ite (decided_yield _) ?_
  refine .ite (decided_yield _) ?_
  refine .ite (decided_yield _) ?_
  refine .ite (htext _) ?_
  refine .ite (htext _) ?_
  refine .ite (htext _) ?_
  refine .ite hsample ?_
  refine .ite (htext _) ?_
  refine .ite (hlength _) ?_
  refine .ite (hlength _) ?_
  refine .ite (hnumber _) ?_
  exact .ite (hnumber _) decided_skipValue

/-- What an item of a namespace comes to does not depend on what comes after it. -/
theorem decided_item (ns : Namespace) (path : MetaPath) : Decided fun g => ns.item g path := by
  cases ns with
  | serde => exact decided_serdeItem path
  | validate => exact decided_validateItem path
  | schema => exact decided_schemaItem path

/-! ## Tags -/

/-- A text that is a tag of a namespace with some items. -/
def IsTag (ns : Namespace) (items : List (List Token)) (tag : String) : Prop :=
  ∃ tokens, Separated items tokens ∧ Token.ofText? tag = some [.name ns.word, .group .parenthesis tokens]

/-- What a text says of a field as a tag; a text that is no attribute says nothing. -/
def Setting.ofTag (tag : String) : List Setting := (Meta.ofText? tag).elim [] Setting.ofMeta

/-- What the tokens of a tag say of a field, and whether all of its items can be read. -/
def Namespace.read (ns : Namespace) (tokens : List Token) : List Setting × Bool :=
  run (ns.item (Grammar.forTokens tokens)) tokens

/-- An item that can be read when it stands alone. -/
def Accepted (ns : Namespace) (item : List Token) : Prop := IsItem item ∧ (ns.read item).2 = true

/-- A list in a namespace says what is read off its tokens there. -/
theorem ofMeta_list (ns : Namespace) (tokens : List Token) :
    Setting.ofMeta (.list ⟨false, [ns.word]⟩ tokens) = (ns.read tokens).1 := by
  cases ns with
  | serde => rfl
  | validate => rfl
  | schema => rfl

/-- A tag is read as a list in its namespace. -/
theorem ofText?_tag {ns : Namespace} {tag : String} {tokens : List Token}
    (h : Token.ofText? tag = some [.name ns.word, .group .parenthesis tokens]) :
    Meta.ofText? tag = some (.list ⟨false, [ns.word]⟩ tokens) := by
  rw [Meta.ofText?, h]
  cases ns with
  | serde => rfl
  | validate => rfl
  | schema => rfl

variable {ns : Namespace} {items : List (List Token)} {item : List Token} {tag : String} {yielded : List Setting}
  {whole : Bool}

/-- What is read off a list of items is what its items come to. -/
theorem Reader.Comes.read_eq (h : Comes ns.item items yielded whole) {tokens : List Token}
    (hseparated : Separated items tokens) (hitems : ∀ i ∈ items, IsItem i) : ns.read tokens = (yielded, whole) :=
  h.run_eq hseparated hitems (Grammar.readsLiterals_forTokens tokens)

/-- A tag says what its items come to. -/
theorem Reader.Comes.ofTag_eq (h : Comes ns.item items yielded whole) (hitems : ∀ i ∈ items, IsItem i)
    (htag : IsTag ns items tag) : Setting.ofTag tag = yielded := by
  rcases htag with ⟨tokens, hseparated, htokens⟩
  rw [Setting.ofTag, ofText?_tag htokens, Option.elim_some, ofMeta_list, h.read_eq hseparated hitems]

/-- An item that can be read comes to what it says. -/
theorem Accepted.comes (h : Accepted ns item) : Comes ns.item [item] (ns.read item).1 true := by
  rcases h with ⟨hitem, hread⟩
  have hitems : ∀ i ∈ [item], IsItem i := List.forall_mem_singleton.2 hitem
  rcases exists_comes (decided_item ns) hitems with ⟨yielded, whole, hcomes⟩
  have heq := hcomes.read_eq (.last item) hitems
  rw [heq] at hread ⊢
  rw [← hread]
  exact hcomes

/-- Accepted items are all read. -/
theorem comes_of_accepted (h : ∀ i ∈ items, Accepted ns i) :
    Comes ns.item items (items.flatMap fun i => (ns.read i).1) true := by
  induction items with
  | nil => exact .done
  | cons item items ih =>
      rcases List.forall_mem_cons.1 h with ⟨hitem, hitems⟩
      exact hitem.comes.append (ih hitems)

/-- A tag of items that can be read one by one says what they say, in their order. -/
theorem ofTag_of_accepted (h : ∀ i ∈ items, Accepted ns i) (htag : IsTag ns items tag) :
    Setting.ofTag tag = items.flatMap fun i => (ns.read i).1 :=
  (comes_of_accepted h).ofTag_eq (fun i hi => (h i hi).1) htag

end Metadata

namespace FieldMetadata

open Metadata

/-- The metadata of a field is made of what its tags say, in their order. -/
theorem ofTags_eq (tags : List String) : ofTags tags = ofSettings (tags.flatMap Setting.ofTag) := by
  have hsettings : (tags.filterMap Meta.ofText?).flatMap Setting.ofMeta = tags.flatMap Setting.ofTag := by
    induction tags with
    | nil => rfl
    | cons tag tags ih =>
        rw [List.flatMap_cons, ← ih, Setting.ofTag]
        cases hmeta : Meta.ofText? tag with
        | none => rw [List.filterMap_cons_none hmeta, Option.elim_none, List.nil_append]
        | some m => rw [List.filterMap_cons_some hmeta, Option.elim_some, List.flatMap_cons]
  rw [ofTags, ofAttributes, hsettings]

end FieldMetadata

end PayloadSchema
