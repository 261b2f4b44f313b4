import PayloadSchema.Proofs.Json.Records
import PayloadSchema.Proofs.Schema.Everywhere
import PayloadSchema.Schema.Decode

/-!
# Schemas that are written and read

A schema can be kept in a text if its properties are in order, its lengths have 64 bits and its free values
are storable (`Schema.PartsStorable`, at every depth). Two things are lost of it nevertheless: a bound that is
infinite or no number has no text, and a sample that is `null` is read as none (`Schema.settled`).

* `Schema.settled_eq_self_iff` — when nothing is lost;
* `Schema.decode?_toValue` — what is read back of a schema that was written;
* `Schema.readAt_of_decode?` — what was read once can be kept, and nothing of it is lost.
-/

namespace PayloadSchema.Schema

open Json (Value Draft Number document putAll putAll_append putAll_member sublist_member forall_mem_member)

/-! ## The members of a written schema -/

/-- The members that are written for a schema. -/
def members (s : Schema) : List (String × Value) :=
  member "type" (fun k => .string (JsonType.name k)) s.kind
    ++ member "properties" (fun entries => .object (entries.map fun e => (e.1, e.2.toValue))) s.properties
    ++ member "required" (fun names => .array (names.map .string)) s.required
    ++ member "items" toValue s.items
    ++ member "additionalProperties" toValue s.additional
    ++ member "format" .string s.format
    ++ member "pattern" .string s.pattern
    ++ member "minimum" .ofReal s.minimum
    ++ member "maximum" .ofReal s.maximum
    ++ member "minLength" (fun n : Nat => .ofInt n) s.minLength
    ++ member "maxLength" (fun n : Nat => .ofInt n) s.maxLength
    ++ member "enum" .array s.allowed
    ++ member "description" .string s.description
    ++ member "example" id s.sample

/-- The properties are written one by one. -/
theorem entryMembers_eq (entries : List (String × Schema)) :
    entryMembers entries = entries.map fun e => (e.1, e.2.toValue) := by
  induction entries with
  | nil => rfl
  | cons e entries ih => rw [entryMembers, ih, List.map_cons]

/-- A schema is written as the object of its members. -/
theorem toValue_eq (s : Schema) : s.toValue = .object s.members := by
  have hchild (name : String) (child : Option Schema) : childMember name child = member name toValue child := by
    cases child <;> simp [childMember, member]
  have hproperties (properties : Option (List (String × Schema))) : propertiesMember properties =
      member "properties" (fun entries => .object (entries.map fun e => (e.1, e.2.toValue))) properties := by
    cases properties <;> simp [propertiesMember, member, entryMembers_eq]
  cases s
  simp only [toValue, hchild, hproperties, members]

/-- The values of all members have a property. -/
structure MembersHave (P : Value → Prop) (s : Schema) : Prop where
  kind : ∀ k, s.kind = some k → P (.string k.name)
  properties : ∀ entries, s.properties = some entries → P (.object (entries.map fun e => (e.1, e.2.toValue)))
  required : ∀ names, s.required = some names → P (.array (names.map .string))
  items : ∀ t, s.items = some t → P t.toValue
  additional : ∀ t, s.additional = some t → P t.toValue
  format : ∀ text, s.format = some text → P (.string text)
  pattern : ∀ text, s.pattern = some text → P (.string text)
  minimum : ∀ x, s.minimum = some x → P (.ofReal x)
  maximum : ∀ x, s.maximum = some x → P (.ofReal x)
  minLength : ∀ n : Nat, s.minLength = some n → P (.ofInt n)
  maxLength : ∀ n : Nat, s.maxLength = some n → P (.ofInt n)
  allowed : ∀ values, s.allowed = some values → P (.array values)
  description : ∀ text, s.description = some text → P (.string text)
  sample : ∀ v, s.sample = some v → P v

/-- What holds of all members holds of each part that is there. -/
theorem forall_mem_members {P : Value → Prop} {s : Schema} :
    (∀ m ∈ s.members, P m.2) ↔ s.MembersHave P := by
  simp only [members, List.forall_mem_append, forall_mem_member]
  constructor
  · rintro ⟨⟨⟨⟨⟨⟨⟨⟨⟨⟨⟨⟨⟨h1, h2⟩, h3⟩, h4⟩, h5⟩, h6⟩, h7⟩, h8⟩, h9⟩, h10⟩, h11⟩, h12⟩, h13⟩, h14⟩
    exact ⟨h1, h2, h3, h4, h5, h6, h7, h8, h9, h10, h11, h12, h13, h14⟩
  · rintro ⟨h1, h2, h3, h4, h5, h6, h7, h8, h9, h10, h11, h12, h13, h14⟩
    exact ⟨⟨⟨⟨⟨⟨⟨⟨⟨⟨⟨⟨⟨h1, h2⟩, h3⟩, h4⟩, h5⟩, h6⟩, h7⟩, h8⟩, h9⟩, h10⟩, h11⟩, h12⟩, h13⟩, h14⟩

/-- The numbers of a written schema are those of its members. -/
theorem allNumbers_toValue_iff {P : Number → Prop} {s : Schema} :
    s.toValue.AllNumbers P ↔ s.MembersHave (·.AllNumbers P) := by
  rw [toValue_eq, Value.allNumbers_object_iff, forall_mem_members]

/-- A written schema is nested one level deeper than its members. -/
theorem nesting_toValue_le_iff {s : Schema} {depth : Nat} :
    s.toValue.nesting ≤ depth + 1 ↔ s.MembersHave (·.nesting ≤ depth) := by
  have hmembers : (∀ m ∈ s.members, m.2.nesting ≤ depth) ↔ s.MembersHave (·.nesting ≤ depth) :=
    forall_mem_members (P := (·.nesting ≤ depth))
  rw [toValue_eq]
  exact Value.nesting_object_le_iff.trans hmembers

/-! ## What is kept of a schema -/

/-- The parts of a schema that only a text of its own can spoil: the properties ascend, the lengths have 64
bits, and free values are storable. -/
structure PartsStorable (s : Schema) : Prop where
  properties : ∀ entries, s.properties = some entries → Dictionary.Ascending entries
  minLength : ∀ n, s.minLength = some n → n < twoPow 64
  maxLength : ∀ n, s.maxLength = some n → n < twoPow 64
  allowed : ∀ values, s.allowed = some values → ∀ v ∈ values, v.Storable
  sample : ∀ v, s.sample = some v → v.Storable

/-- The parts of a schema that are written as they are meant: the bounds are finite, and the sample is not
`null`. -/
structure PartsSettled (s : Schema) : Prop where
  minimum : ∀ x, s.minimum = some x → x.isFinite = true
  maximum : ∀ x, s.maximum = some x → x.isFinite = true
  sample : s.sample ≠ some .null

/-- The sample of a schema as it is read: `null` says that there is none. -/
def settledSample : Option Value → Option Value
  | some .null => none
  | sample => sample

mutual
/-- A schema as it is read after it was written: an infinite bound and a sample that is `null` are lost,
at every level. -/
def settled : Schema → Schema
  | ⟨kind, properties, required, items, additional, format, pattern, minimum, maximum, minLength,
      maxLength, allowed, description, sample⟩ =>
    ⟨kind, settledAll properties, required, settledOption items, settledOption additional, format, pattern,
      minimum.filter Binary64.isFinite, maximum.filter Binary64.isFinite, minLength, maxLength, allowed,
      description, settledSample sample⟩
/-- Every property, if there are any. -/
def settledAll : Option (List (String × Schema)) → Option (List (String × Schema))
  | none => none
  | some entries => some (settledEntries entries)
/-- Every schema of a list. -/
def settledEntries : List (String × Schema) → List (String × Schema)
  | [] => []
  | (name, s) :: rest => (name, settled s) :: settledEntries rest
def settledOption : Option Schema → Option Schema
  | none => none
  | some s => some (settled s)
end

/-- Each property is settled on its own. -/
theorem settledEntries_eq (entries : List (String × Schema)) :
    settledEntries entries = entries.map fun e => (e.1, e.2.settled) := by
  induction entries with
  | nil => rfl
  | cons e entries ih => rw [settledEntries, ih, List.map_cons]

theorem settledOption_eq (child : Option Schema) : settledOption child = child.map settled := by
  cases child <;> simp [settledOption]

/-- The properties are settled if there are any. -/
theorem settledAll_eq (properties : Option (List (String × Schema))) :
    settledAll properties = properties.map fun entries => entries.map fun e => (e.1, e.2.settled) := by
  cases properties <;> simp [settledAll, settledEntries_eq]

/-- A settled schema, part by part. -/
theorem settled_eq (s : Schema) : s.settled =
    { s with
      properties := s.properties.map fun entries => entries.map fun e => (e.1, e.2.settled)
      items := s.items.map settled
      additional := s.additional.map settled
      minimum := s.minimum.filter Binary64.isFinite
      maximum := s.maximum.filter Binary64.isFinite
      sample := settledSample s.sample } := by
  cases s
  simp only [settled, settledAll_eq, settledOption_eq]

/-- A sample is lost if and only if it is null. -/
theorem settledSample_eq_self_iff {sample : Option Value} :
    settledSample sample = sample ↔ sample ≠ some .null := by
  unfold settledSample
  split <;> simp_all

/-- A bound is lost if and only if it is not finite. -/
theorem filter_isFinite_eq_self_iff {bound : Option Binary64} :
    bound.filter Binary64.isFinite = bound ↔ ∀ x, bound = some x → x.isFinite = true := by
  cases bound <;> simp [Option.filter]

/-- Nothing is lost of a schema if and only if it is written as it is meant, and nothing is lost of the
schemas right inside. -/
theorem settled_eq_self {s : Schema} :
    s.settled = s ↔ s.PartsSettled ∧ ∀ t ∈ s.children, t.settled = t := by
  have hentries (entries : List (String × Schema)) :
      entries.map (fun e => (e.1, e.2.settled)) = entries ↔ ∀ e ∈ entries, e.2.settled = e.2 := by
    have hmap := List.map_inj_left (l := entries) (f := fun e => (e.1, e.2.settled)) (g := id)
    rw [List.map_id] at hmap
    rw [hmap]
    constructor
    · intro h e he
      exact congrArg Prod.snd (h e he)
    · intro h e he
      exact Prod.ext rfl (h e he)
  have hproperties : (s.properties.map fun entries => entries.map fun e => (e.1, e.2.settled)) = s.properties ↔
      ∀ e ∈ s.properties.getD [], e.2.settled = e.2 := by
    cases s.properties with
    | none => simp
    | some entries => simp [hentries]
  have hchild (child : Option Schema) : child.map settled = child ↔ ∀ t, child = some t → t.settled = t := by
    cases child <;> simp
  -- the equation is one for each part that can change
  rw [forall_mem_children, ← hproperties, ← hchild, ← hchild]
  constructor
  · intro h
    rw [settled_eq] at h
    have hminimum := filter_isFinite_eq_self_iff.1 (congrArg minimum h)
    have hmaximum := filter_isFinite_eq_self_iff.1 (congrArg maximum h)
    have hsample := settledSample_eq_self_iff.1 (congrArg sample h)
    exact ⟨⟨hminimum, hmaximum, hsample⟩, congrArg properties h, congrArg items h, congrArg additional h⟩
  · rintro ⟨hparts, hproperties, hitems, hadditional⟩
    have hminimum := filter_isFinite_eq_self_iff.2 hparts.minimum
    have hmaximum := filter_isFinite_eq_self_iff.2 hparts.maximum
    have hsample := settledSample_eq_self_iff.2 hparts.sample
    rw [settled_eq, hproperties, hitems, hadditional, hminimum, hmaximum, hsample]
    cases s
    rfl

/-- Nothing is lost of a schema if and only if everything in it is written as it is meant. -/
theorem settled_eq_self_iff {s : Schema} : s.settled = s ↔ s.Everywhere PartsSettled :=
  iff_everywhere fun _ => settled_eq_self

/-- The integers in a schema have 64 bits, and so they are read back. -/
theorem legibleIntegers_toValue {s : Schema} (h : s.Everywhere PartsStorable) : s.toValue.LegibleIntegers := by
  induction h with
  | @intro s hhere _ ih =>
      -- The only integers of a schema are its lengths, and those fit a word.
      have hlength {n : Nat} (hn : n < twoPow 64) : (Value.ofInt n).LegibleIntegers := by
        intro m hm i _
        have hlow : -(twoPow 63 : Int) ≤ n := by
          have : -(twoPow 63 : Int) ≤ 0 := by decide
          omega
        have hhigh : (n : Int) < twoPow 64 := Int.ofNat_lt.2 hn
        rw [List.mem_singleton.1 hm]
        exact Number.legible_integer hlow hhigh
      -- Bounds are reals, which the claim leaves out.
      have hbound (x : Binary64) : (Value.ofReal x).LegibleIntegers := by
        rintro m hm i rfl
        cases List.mem_singleton.1 hm
      have htext (text : String) : (Value.string text).LegibleIntegers := by
        rintro n ⟨⟩
      have hproperties (entries : List (String × Schema)) (hentries : s.properties = some entries) :
          (Value.object (entries.map fun e => (e.1, e.2.toValue))).LegibleIntegers := by
        refine Value.allNumbers_object_iff.2 ?_
        intro m hm
        obtain ⟨e, he, rfl⟩ := List.mem_map.1 hm
        exact ih e.2 (mem_children_of_mem_properties hentries he)
      have hrequired (names : List String) : (Value.array (names.map .string)).LegibleIntegers := by
        refine Value.allNumbers_array_iff.2 ?_
        intro v hv
        obtain ⟨name, -, rfl⟩ := List.mem_map.1 hv
        exact htext name
      have hallowed (values : List Value) (hvalues : s.allowed = some values) :
          (Value.array values).LegibleIntegers := by
        refine Value.allNumbers_array_iff.2 ?_
        intro v hv
        exact (hhere.allowed values hvalues v hv).legibleIntegers
      refine allNumbers_toValue_iff.2
        { kind := fun k _ => htext k.name
          properties := hproperties
          required := fun names _ => hrequired names
          items := fun t ht => ih t (mem_children_iff.2 (.inr (.inl ht)))
          additional := fun t ht => ih t (mem_children_iff.2 (.inr (.inr ht)))
          format := fun text _ => htext text
          pattern := fun text _ => htext text
          minimum := fun x _ => hbound x
          maximum := fun x _ => hbound x
          minLength := fun n hn => hlength (hhere.minLength n hn)
          maxLength := fun n hn => hlength (hhere.maxLength n hn)
          allowed := hallowed
          description := fun text _ => htext text
          sample := fun v hv => (hhere.sample v hv).legibleIntegers }

/-! ## Reading back -/

/-- The members are written in the order of the parts. -/
theorem members_sublist (s : Schema) : (s.members.map (·.1)).Sublist memberNames := by
  simp only [members, List.map_append]
  exact (((((((((((((sublist_member "type" _ _).append (sublist_member "properties" _ _)).append
    (sublist_member "required" _ _)).append (sublist_member "items" _ _)).append
    (sublist_member "additionalProperties" _ _)).append (sublist_member "format" _ _)).append
    (sublist_member "pattern" _ _)).append (sublist_member "minimum" _ _)).append
    (sublist_member "maximum" _ _)).append (sublist_member "minLength" _ _)).append
    (sublist_member "maxLength" _ _)).append (sublist_member "enum" _ _)).append
    (sublist_member "description" _ _)).append (sublist_member "example" _ _)

/-- The draft of a written schema is that of its members. -/
theorem draft_toValue (s : Schema) : s.toValue.draft = .object (Value.draftMembers s.members) := by
  rw [toValue_eq, Value.draft]

/-- No schema is written as null. -/
theorem toValue_draft_ne_null (s : Schema) : s.toValue.draft ≠ .null := by
  rw [draft_toValue]
  simp

/-- Texts are read back one by one. -/
theorem mapM_text (names : List String) :
    ((names.map Value.string).map Value.draft).mapM document.text? = some names := by
  induction names with
  | nil => rfl
  | cons name names ih =>
      have hread : document.text? (Value.string name).draft = some name := rfl
      rw [List.map_cons, List.map_cons, List.mapM_cons, hread, ih]
      rfl

/-- Values are read back one by one. -/
theorem mapM_value {depth : Nat} {values : List Value}
    (h : ∀ v ∈ values, Draft.toValueAt? depth v.draft = some v) :
    (values.map Value.draft).mapM (document.value? depth) = some values := by
  induction values with
  | nil => rfl
  | cons v values ih =>
      obtain ⟨hv, hvalues⟩ := List.forall_mem_cons.1 h
      have hread : document.value? depth v.draft = some v := hv
      rw [List.map_cons, List.mapM_cons, hread, ih hvalues]
      rfl

/-- The properties are read by name. -/
theorem properties_draft {depth : Nat} {property : Draft → Option Schema} {entries : List (String × Schema)}
    (horder : Dictionary.Ascending entries)
    (h : ∀ e ∈ entries, property e.2.toValue.draft = some e.2.settled) :
    putMember.properties document (depth + 1) property
        (Value.object (entries.map fun e => (e.1, e.2.toValue))).draft =
      some (entries.map fun e => (e.1, e.2.settled)) := by
  have hread : (Value.draftMembers (entries.map fun e => (e.1, e.2.toValue))).mapM
      (fun (m : Option String × Draft) => do return (← m.1, ← property m.2)) =
        some (entries.map fun e => (e.1, e.2.settled)) := by
    clear horder
    induction entries with
    | nil => rfl
    | cons e entries ih =>
        obtain ⟨he, hentries⟩ := List.forall_mem_cons.1 h
        rw [List.map_cons, Value.draftMembers, List.mapM_cons, ih hentries, he]
        rfl
  -- The keys stand in order, so collecting them into a dictionary changes nothing.
  have hascending : Dictionary.Ascending (entries.map fun e => (e.1, e.2.settled)) :=
    List.pairwise_map.2 horder
  have hproperties : putMember.properties document (depth + 1) property
      (Value.object (entries.map fun (e : String × Schema) => (e.1, e.2.toValue))).draft =
        ((Value.draftMembers (entries.map fun (e : String × Schema) => (e.1, e.2.toValue))).mapM
          (fun (m : Option String × Draft) => do return (← m.1, ← property m.2))).bind
            fun entries => some (Dictionary.ofList entries) := rfl
  rw [hproperties, hread, Option.bind_some, Dictionary.ofList_of_ascending hascending]

section

variable {s : Schema} {depth : Nat} {child property : Draft → Option Schema}

/-! The members of a schema are put in one after another, each as it is read. -/

/-- The kind of a schema is read back. -/
theorem putAll_kind {acc : Schema} (hacc : { acc with kind := none } = acc) (kind : Option JsonType) :
    putAll (putMember document depth child property) acc
      (member "type" (fun k => .string (JsonType.name k)) kind) = some { acc with kind } := by
  refine putAll_member (f := fun (acc : Schema) part => { acc with kind := part }) (fun _ _ => rfl) id ?_ hacc
  rintro k rfl
  refine Json.optional?_of_read (by simp [Value.draft]) ?_
  simp [Value.draft, document]

/-- The properties of a schema are read back, if those inside are. -/
theorem putAll_properties {acc : Schema} (hacc : { acc with properties := none } = acc)
    {properties : Option (List (String × Schema))}
    (horder : ∀ entries, properties = some entries → Dictionary.Ascending entries)
    (hdepth : ∀ entries, properties = some entries →
      (Value.object (entries.map fun e => (e.1, e.2.toValue))).nesting ≤ depth)
    (hproperty : ∀ entries, properties = some entries → ∀ e ∈ entries,
      property e.2.toValue.draft = some e.2.settled) :
    putAll (putMember document depth child property) acc (member "properties"
        (fun entries => .object (entries.map fun e => (e.1, e.2.toValue))) properties) =
      some { acc with
        properties := properties.map fun entries => entries.map fun e => (e.1, e.2.settled) } := by
  refine putAll_member (f := fun (acc : Schema) part => { acc with properties := part }) (fun _ _ => rfl)
    (fun h => by rw [h]; rfl) ?_ hacc
  rintro entries rfl
  refine Json.optional?_of_read (by simp [Value.draft]) ?_
  have hobject := hdepth entries rfl
  -- An object spends one level before its members are read.
  cases depth with
  | zero => exact absurd hobject (Nat.not_succ_le_zero _)
  | succ below => exact properties_draft (horder entries rfl) (hproperty entries rfl)

/-- The required names of a schema are read back. -/
theorem putAll_required {acc : Schema} (hacc : { acc with required := none } = acc)
    {required : Option (List String)}
    (hdepth : ∀ names, required = some names → (Value.array (names.map .string)).nesting ≤ depth) :
    putAll (putMember document depth child property) acc
      (member "required" (fun names => .array (names.map .string)) required) =
        some { acc with required } := by
  refine putAll_member (f := fun (acc : Schema) part => { acc with required := part }) (fun _ _ => rfl) id ?_
    hacc
  rintro names rfl
  refine Json.optional?_of_read (by simp [Value.draft]) ?_
  have harray := hdepth names rfl
  cases depth with
  | zero => exact absurd harray (Nat.not_succ_le_zero _)
  | succ below =>
      rw [Value.draft, Value.draftElements_eq]
      exact mapM_text names

/-- The allowed values of a schema are read back. -/
theorem putAll_allowed {acc : Schema} (hacc : { acc with allowed := none } = acc)
    {allowed : Option (List Value)}
    (hdepth : ∀ values, allowed = some values → (Value.array values).nesting ≤ depth)
    (hstorable : ∀ values, allowed = some values → ∀ v ∈ values, v.Storable)
    (hlegible : ∀ values, allowed = some values → (Value.array values).Legible) :
    putAll (putMember document depth child property) acc (member "enum" .array allowed) =
      some { acc with allowed } := by
  refine putAll_member (f := fun (acc : Schema) part => { acc with allowed := part }) (fun _ _ => rfl) id ?_
    hacc
  rintro values rfl
  refine Json.optional?_of_read (by simp [Value.draft]) ?_
  have harray := hdepth values rfl
  -- The values are read one level below the array that holds them.
  cases depth with
  | zero => exact absurd harray (Nat.not_succ_le_zero _)
  | succ below =>
      rw [Value.draft, Value.draftElements_eq]
      have hnumbers := Value.allNumbers_array_iff.1 (hlegible values rfl)
      have hbelow := Value.nesting_array_le_iff.1 harray
      refine mapM_value ?_
      intro v hv
      exact Value.toValueAt?_draft (hstorable values rfl v hv) (hnumbers v hv) (hbelow v hv)

/-- The sample of a schema is read back, unless it is null. -/
theorem putAll_sample {acc : Schema} (hacc : { acc with sample := none } = acc) {sample : Option Value}
    (hread : ∀ v, sample = some v → Draft.toValueAt? depth v.draft = some v) :
    putAll (putMember document depth child property) acc (member "example" id sample) =
      some { acc with sample := settledSample sample } := by
  refine putAll_member (f := fun (acc : Schema) part => { acc with sample := part }) (fun _ _ => rfl)
    (fun h => by rw [h]; rfl) ?_ hacc
  rintro v rfl
  by_cases hnull : v = .null
  · subst hnull
    exact Json.optional?_null _
  · have hkept : settledSample (some v) = some v :=
      settledSample_eq_self_iff.2 fun heq => hnull (Option.some.inj heq)
    have hpresent := hread v rfl
    have hne := Json.draft_ne_null hnull hpresent
    rw [hkept]
    exact Json.optional?_of_read hne hpresent

/-! Schemas, texts, bounds and lengths stand in several places. -/

section

variable (name : String) {acc : Schema}

/-- A schema inside is read back as what is settled of it. -/
theorem putAll_child (f : Schema → Option Schema → Schema)
    (hput : ∀ d acc, putMember document depth child property name d acc =
      (document.optional? child d).bind fun part => some (f acc part))
    (hacc : f acc none = acc) {o : Option Schema}
    (hchild : ∀ t, o = some t → child t.toValue.draft = some t.settled) :
    putAll (putMember document depth child property) acc (member name toValue o) =
      some (f acc (o.map settled)) := by
  refine putAll_member hput (fun h => by rw [h]; rfl) ?_ hacc
  rintro t rfl
  exact Json.optional?_of_read (toValue_draft_ne_null t) (hchild t rfl)

/-- A text in a schema is read back. -/
theorem putAll_text (f : Schema → Option String → Schema)
    (hput : ∀ d acc, putMember document depth child property name d acc =
      (document.optional? document.text? d).bind fun part => some (f acc part))
    (hacc : f acc none = acc) (o : Option String) :
    putAll (putMember document depth child property) acc (member name .string o) = some (f acc o) := by
  refine putAll_member hput id ?_ hacc
  rintro text rfl
  exact Json.optional?_of_read (by simp [Value.draft]) rfl

/-- A bound is read back if it is finite. -/
theorem putAll_bound (f : Schema → Option Binary64 → Schema)
    (hput : ∀ d acc, putMember document depth child property name d acc =
      (document.optional? document.real? d).bind fun part => some (f acc part))
    (hacc : f acc none = acc) {o : Option Binary64} (ho : ∀ x, o = some x → (Value.ofReal x).Legible) :
    putAll (putMember document depth child property) acc (member name .ofReal o) =
      some (f acc (o.filter Binary64.isFinite)) := by
  refine putAll_member hput (fun h => by rw [h, Option.filter_none]) ?_ hacc
  rintro x rfl
  -- A bound that is not finite was written as a null, and a null is read as no bound.
  cases hfinite : x.isFinite with
  | true =>
      obtain ⟨hne, hread⟩ := Json.real?_draft hfinite (ho x rfl)
      rw [Option.filter_some_pos hfinite]
      exact Json.optional?_of_read hne hread
  | false =>
      rw [Json.draft_ofReal_of_not_finite hfinite, Option.filter_some_neg (by simp [hfinite])]
      exact Json.optional?_null _

/-- A length of 64 bits is read back. -/
theorem putAll_length (f : Schema → Option Nat → Schema)
    (hput : ∀ d acc, putMember document depth child property name d acc =
      (document.optional? document.natural? d).bind fun part => some (f acc part))
    (hacc : f acc none = acc) {o : Option Nat} (ho : ∀ n, o = some n → n < twoPow 64) :
    putAll (putMember document depth child property) acc (member name (fun n : Nat => .ofInt n) o) =
      some (f acc o) := by
  refine putAll_member hput id ?_ hacc
  rintro n rfl
  obtain ⟨hne, hread⟩ := Json.natural?_draft (ho n rfl)
  exact Json.optional?_of_read hne hread

end

/-- The members of a schema are put together to what is kept of it. -/
theorem putAll_members (hstorable : s.PartsStorable) (hlegible : s.MembersHave Value.Legible)
    (hdepth : s.MembersHave (·.nesting ≤ depth))
    (hchild : ∀ t, s.items = some t ∨ s.additional = some t → child t.toValue.draft = some t.settled)
    (hproperty : ∀ entries, s.properties = some entries → ∀ e ∈ entries,
      property e.2.toValue.draft = some e.2.settled) :
    putAll (putMember document depth child property) {} s.members = some s.settled := by
  have hsample (v : Value) (hv : s.sample = some v) : Draft.toValueAt? depth v.draft = some v :=
    Value.toValueAt?_draft (hstorable.sample v hv) (hlegible.sample v hv) (hdepth.sample v hv)
  rw [settled_eq]
  simp only [members, putAll_append]
  -- each member is put into a record that does not have it yet
  rw [putAll_kind rfl, Option.bind_some,
    putAll_properties rfl hstorable.properties hdepth.properties hproperty, Option.bind_some,
    putAll_required rfl hdepth.required, Option.bind_some,
    putAll_child "items" (fun acc part => { acc with items := part }) (fun _ _ => rfl) rfl
      fun t ht => hchild t (.inl ht), Option.bind_some,
    putAll_child "additionalProperties" (fun acc part => { acc with additional := part }) (fun _ _ => rfl) rfl
      fun t ht => hchild t (.inr ht), Option.bind_some,
    putAll_text "format" (fun acc part => { acc with format := part }) (fun _ _ => rfl) rfl, Option.bind_some,
    putAll_text "pattern" (fun acc part => { acc with pattern := part }) (fun _ _ => rfl) rfl,
    Option.bind_some,
    putAll_bound "minimum" (fun acc part => { acc with minimum := part }) (fun _ _ => rfl) rfl
      hlegible.minimum, Option.bind_some,
    putAll_bound "maximum" (fun acc part => { acc with maximum := part }) (fun _ _ => rfl) rfl
      hlegible.maximum, Option.bind_some,
    putAll_length "minLength" (fun acc part => { acc with minLength := part }) (fun _ _ => rfl) rfl
      hstorable.minLength, Option.bind_some,
    putAll_length "maxLength" (fun acc part => { acc with maxLength := part }) (fun _ _ => rfl) rfl
      hstorable.maxLength, Option.bind_some,
    putAll_allowed rfl hdepth.allowed hstorable.allowed hlegible.allowed, Option.bind_some,
    putAll_text "description" (fun acc part => { acc with description := part }) (fun _ _ => rfl) rfl,
    Option.bind_some, putAll_sample rfl hsample]

end

/-- Reads a property, which lies two levels below. -/
def propertyAt : Nat → Draft → Option Schema
  | 0 => fun _ => none
  | below + 1 => decode? document below

/-- A schema is read member by member, or as a tuple of its parts. -/
theorem decode?_succ (depth : Nat) (d : Draft) :
    decode? document (depth + 1) d =
      match document.members? d with
      | some members => Document.record? memberNames
          (putMember document depth (decode? document depth) (propertyAt depth)) {} members
      | none => (document.elements? d).bind fun elements => Document.tuple? memberNames memberNames.length
          (putMember document depth (decode? document depth) (propertyAt depth)) {} elements := by
  cases depth with
  | zero =>
      rw [decode?]
      cases document.members? d <;> rfl
  | succ depth =>
      rw [decode?]
      cases document.members? d <;> rfl

/-- **What is read back.** -/
theorem decode?_toValue {s : Schema} (hstorable : s.Everywhere PartsStorable) (hlegible : s.toValue.Legible)
    {depth : Nat} (hdepth : s.toValue.nesting ≤ depth) :
    decode? document depth s.toValue.draft = some s.settled := by
  induction hstorable generalizing depth with
  | @intro s hhere _ ih =>
      cases depth with
      | zero =>
          rw [toValue_eq] at hdepth
          exact absurd hdepth (Nat.not_succ_le_zero _)
      | succ depth =>
          have hdepth := nesting_toValue_le_iff.1 hdepth
          have hlegible := allNumbers_toValue_iff.1 hlegible
          have hchild (t : Schema) (ht : s.items = some t ∨ s.additional = some t) :
              decode? document depth t.toValue.draft = some t.settled := by
            have hinside : t ∈ s.children := mem_children_iff.2 (.inr ht)
            rcases ht with ht | ht
            · exact ih t hinside (hlegible.items t ht) (hdepth.items t ht)
            · exact ih t hinside (hlegible.additional t ht) (hdepth.additional t ht)
          have hproperty (entries : List (String × Schema)) (hentries : s.properties = some entries) :
              ∀ e ∈ entries, propertyAt depth e.2.toValue.draft = some e.2.settled := by
            intro e he
            have hinside := mem_children_of_mem_properties hentries he
            have hvalue : (e.1, e.2.toValue) ∈ entries.map fun e => (e.1, e.2.toValue) :=
              List.mem_map_of_mem he
            have hlegible := Value.allNumbers_object_iff.1 (hlegible.properties entries hentries) _ hvalue
            have hobject := hdepth.properties entries hentries
            cases depth with
            | zero => exact absurd hobject (Nat.not_succ_le_zero _)
            | succ below => exact ih e.2 hinside hlegible (Value.nesting_object_le_iff.1 hobject _ hvalue)
          have hmembers : document.members? s.toValue.draft = some (Value.draftMembers s.members) := by
            rw [draft_toValue]
            rfl
          -- the members are written in the order of their names, so they are put in one after another
          rw [decode?_succ, hmembers]
          dsimp only
          rw [Json.record?_draftMembers ({} : Schema) (by decide) (members_sublist s)]
          exact putAll_members hhere hlegible hdepth hchild hproperty

/-! ## What was read -/

/-- What can be said of a schema that was read at a depth: it is kept when it is written. -/
structure ReadAt (depth : Nat) (s : Schema) : Prop where
  storable : s.Everywhere PartsStorable
  settled : s.settled = s
  nesting : s.toValue.nesting ≤ depth

/-- What can be said of the parts of a schema, with so many levels left for them. -/
structure PartsReadAt (depth : Nat) (s : Schema) : Prop where
  properties : ∀ entries, s.properties = some entries →
    Dictionary.Ascending entries ∧ ∃ below, depth = below + 1 ∧ ∀ e ∈ entries, e.2.ReadAt below
  required : ∀ names, s.required = some names → ∃ below, depth = below + 1
  items : ∀ t, s.items = some t → t.ReadAt depth
  additional : ∀ t, s.additional = some t → t.ReadAt depth
  minimum : ∀ x, s.minimum = some x → x.isFinite = true
  maximum : ∀ x, s.maximum = some x → x.isFinite = true
  minLength : ∀ n, s.minLength = some n → n < twoPow 64
  maxLength : ∀ n, s.maxLength = some n → n < twoPow 64
  allowed : ∀ values, s.allowed = some values → ∃ below, depth = below + 1 ∧ ∀ v ∈ values, v.ReadAt below
  sample : ∀ v, s.sample = some v → v ≠ .null ∧ v.ReadAt depth

theorem partsReadAt_empty (depth : Nat) : PartsReadAt depth {} := by
  constructor <;> rintro _ ⟨⟩

/-- A schema whose parts were read at a depth was read one level deeper. -/
theorem PartsReadAt.readAt {depth : Nat} {s : Schema} (h : s.PartsReadAt depth) : s.ReadAt (depth + 1) := by
  have hinside : ∀ t ∈ s.children, t.Everywhere PartsStorable ∧ t.settled = t := by
    refine forall_mem_children.2 ⟨?_, ?_, ?_⟩
    · intro e he
      cases hentries : s.properties with
      | none =>
          rw [hentries] at he
          cases he
      | some entries =>
          obtain ⟨-, below, -, hread⟩ := h.properties entries hentries
          rw [hentries] at he
          exact ⟨(hread e he).storable, (hread e he).settled⟩
    · intro t ht
      exact ⟨(h.items t ht).storable, (h.items t ht).settled⟩
    · intro t ht
      exact ⟨(h.additional t ht).storable, (h.additional t ht).settled⟩
  have hstorable : s.PartsStorable := by
    refine ⟨?_, h.minLength, h.maxLength, ?_, ?_⟩
    · intro entries hentries
      exact (h.properties entries hentries).1
    · intro values hvalues v hv
      obtain ⟨below, -, hread⟩ := h.allowed values hvalues
      exact (hread v hv).1
    · intro v hv
      exact (h.sample v hv).2.1
  have hsettled : s.PartsSettled := by
    refine ⟨h.minimum, h.maximum, ?_⟩
    intro hnull
    exact (h.sample .null hnull).1 rfl
  have hnesting : s.MembersHave (·.nesting ≤ depth) := by
    -- texts and numbers have no levels of their own; lists and properties take one of those that are left
    have hflat {v : Value} (hv : v.nesting = 0) : v.nesting ≤ depth := by
      rw [hv]
      exact Nat.zero_le depth
    have hproperties (entries : List (String × Schema)) (hentries : s.properties = some entries) :
        (Value.object (entries.map fun e => (e.1, e.2.toValue))).nesting ≤ depth := by
      obtain ⟨-, below, rfl, hread⟩ := h.properties entries hentries
      refine Value.nesting_object_le_iff.2 ?_
      intro m hm
      obtain ⟨e, he, rfl⟩ := List.mem_map.1 hm
      exact (hread e he).nesting
    have hrequired (names : List String) (hnames : s.required = some names) :
        (Value.array (names.map .string)).nesting ≤ depth := by
      obtain ⟨below, rfl⟩ := h.required names hnames
      refine Value.nesting_array_le_iff.2 ?_
      intro v hv
      obtain ⟨name, -, rfl⟩ := List.mem_map.1 hv
      exact Nat.zero_le below
    have hallowed (values : List Value) (hvalues : s.allowed = some values) :
        (Value.array values).nesting ≤ depth := by
      obtain ⟨below, rfl, hread⟩ := h.allowed values hvalues
      refine Value.nesting_array_le_iff.2 ?_
      intro v hv
      exact (hread v hv).2
    exact
      { kind := fun _ _ => hflat rfl
        properties := hproperties
        required := hrequired
        items := fun t ht => (h.items t ht).nesting
        additional := fun t ht => (h.additional t ht).nesting
        format := fun _ _ => hflat rfl
        pattern := fun _ _ => hflat rfl
        minimum := fun _ _ => hflat rfl
        maximum := fun _ _ => hflat rfl
        minLength := fun _ _ => hflat rfl
        maxLength := fun _ _ => hflat rfl
        allowed := hallowed
        description := fun _ _ => hflat rfl
        sample := fun v hv => (h.sample v hv).2.2 }
  have heverywhere : s.Everywhere PartsStorable := .intro hstorable fun t ht => (hinside t ht).1
  have hkept : s.settled = s := settled_eq_self.2 ⟨hsettled, fun t ht => (hinside t ht).2⟩
  exact ⟨heverywhere, hkept, nesting_toValue_le_iff.2 hnesting⟩

/-- What is read one by one has what each reading ensures. -/
theorem forall_of_mapM {α β : Type} {f : α → Option β} {P : β → Prop} (hf : ∀ a b, f a = some b → P b)
    {as : List α} {bs : List β} (h : as.mapM f = some bs) : ∀ b ∈ bs, P b := by
  induction as generalizing bs with
  | nil =>
      cases h
      simp
  | cons a as ih =>
      rw [List.mapM_cons] at h
      obtain ⟨b, hb, h⟩ := Option.bind_eq_some_iff.1 h
      obtain ⟨bs', hbs, h⟩ := Option.bind_eq_some_iff.1 h
      cases h
      exact List.forall_mem_cons.2 ⟨hf a b hb, ih hbs⟩

/-- A list is read one level below, element by element. -/
theorem of_list? {α : Type} {depth : Nat} {read : Nat → Draft → Option α} {d : Draft} {as : List α}
    (h : document.list? depth read d = some as) :
    ∃ below, depth = below + 1 ∧ ∃ ds : List Draft, ds.mapM (read below) = some as := by
  cases depth with
  | zero => cases h
  | succ below =>
      have h : (document.elements? d).bind (fun ds => ds.mapM (read below)) = some as := h
      obtain ⟨ds, -, h⟩ := Option.bind_eq_some_iff.1 h
      exact ⟨below, rfl, ds, h⟩

section

variable {depth : Nat} {child property : Draft → Option Schema}

/-- The properties that are read are in order, and what can be said of each is what can be said two levels
below. -/
theorem readAt_of_properties
    (hproperty : ∀ below, depth = below + 1 → ∀ d t, property d = some t → t.ReadAt below) {d : Draft}
    {entries : List (String × Schema)} (h : putMember.properties document depth property d = some entries) :
    Dictionary.Ascending entries ∧ ∃ below, depth = below + 1 ∧ ∀ e ∈ entries, e.2.ReadAt below := by
  cases depth with
  | zero => cases h
  | succ below =>
      have hmembers : (document.members? d).bind (fun ms =>
          (ms.mapM fun (m : Option String × Draft) => do return (← m.1, ← property m.2)).bind
            fun entries => some (Dictionary.ofList entries)) = some entries := h
      obtain ⟨ms, -, hmembers⟩ := Option.bind_eq_some_iff.1 hmembers
      obtain ⟨entries', hentries, heq⟩ := Option.bind_eq_some_iff.1 hmembers
      cases heq
      refine ⟨Dictionary.ascending_ofList entries', below, rfl, ?_⟩
      intro e he
      -- Each member was read one level below, and collecting them only drops some.
      have hall : ∀ e ∈ entries', e.2.ReadAt below := by
        refine forall_of_mapM ?_ hentries
        intro m e he
        obtain ⟨name, -, he⟩ := Option.bind_eq_some_iff.1 he
        obtain ⟨t, ht, he⟩ := Option.bind_eq_some_iff.1 he
        cases he
        exact hproperty below rfl m.2 t ht
      rcases Dictionary.mem_of_mem_insertAll he with he | he
      · exact hall e he
      · cases he

/-- What is put in keeps what can be said of the parts. -/
theorem partsReadAt_putMember (hchild : ∀ d t, child d = some t → t.ReadAt depth)
    (hproperty : ∀ below, depth = below + 1 → ∀ d t, property d = some t → t.ReadAt below)
    (name : String) (d : Draft) (s s' : Schema)
    (h : putMember document depth child property name d s = some s') (hs : s.PartsReadAt depth) :
    s'.PartsReadAt depth := by
  -- one case for each name of a member; the last is that of an unknown name
  unfold putMember at h
  split at h
  case h_15 => cases h
  all_goals
    obtain ⟨part, hpart, heq⟩ := Option.bind_eq_some_iff.1 h
    cases heq
    have hread := Json.of_optional? hpart
  case h_1 => exact { hs with }
  case h_2 =>
    refine { hs with properties := ?_ }
    intro entries hentries
    obtain ⟨hentries, -⟩ := hread entries hentries
    exact readAt_of_properties hproperty hentries
  case h_3 =>
    refine { hs with required := ?_ }
    rintro names rfl
    obtain ⟨below, hbelow, -⟩ := of_list? (hread names rfl).1
    exact ⟨below, hbelow⟩
  case h_4 =>
    refine { hs with items := ?_ }
    intro t ht
    obtain ⟨ht, -⟩ := hread t ht
    exact hchild d t ht
  case h_5 =>
    refine { hs with additional := ?_ }
    intro t ht
    obtain ⟨ht, -⟩ := hread t ht
    exact hchild d t ht
  case h_6 => exact { hs with }
  case h_7 => exact { hs with }
  case h_8 =>
    refine { hs with minimum := ?_ }
    intro x hx
    obtain ⟨hx, -⟩ := hread x hx
    exact Json.isFinite_of_real? hx
  case h_9 =>
    refine { hs with maximum := ?_ }
    intro x hx
    obtain ⟨hx, -⟩ := hread x hx
    exact Json.isFinite_of_real? hx
  case h_10 =>
    refine { hs with minLength := ?_ }
    intro n hn
    obtain ⟨hn, -⟩ := hread n hn
    exact Json.lt_of_natural? hn
  case h_11 =>
    refine { hs with maxLength := ?_ }
    intro n hn
    obtain ⟨hn, -⟩ := hread n hn
    exact Json.lt_of_natural? hn
  case h_12 =>
    refine { hs with allowed := ?_ }
    rintro values rfl
    obtain ⟨below, hbelow, ds, hds⟩ := of_list? (hread values rfl).1
    have hvalue (d : Draft) (v : Value) (hv : document.value? below d = some v) : v.ReadAt below :=
      Value.readAt_of_toValueAt? hv
    exact ⟨below, hbelow, forall_of_mapM hvalue hds⟩
  case h_13 => exact { hs with }
  case h_14 =>
    refine { hs with sample := ?_ }
    rintro v rfl
    obtain ⟨hv, hne⟩ := hread v rfl
    exact ⟨Json.ne_null_of_toValueAt? hv hne, Value.readAt_of_toValueAt? hv⟩

end

/-- **What is read.** A schema that was read is kept when it is written. -/
theorem readAt_of_decode? {depth : Nat} {d : Draft} {s : Schema} (h : decode? document depth d = some s) :
    s.ReadAt depth := by
  induction depth using Nat.strongRecOn generalizing d s with
  | ind depth ih =>
      cases depth with
      | zero => cases h
      | succ depth =>
          -- Strong induction, because a property is read two levels below the schema.
          have hproperty (below : Nat) (hbelow : depth = below + 1) (d : Draft) (t : Schema)
              (ht : propertyAt depth d = some t) : t.ReadAt below := by
            subst hbelow
            exact ih below (by omega) ht
          have hchild (d : Draft) (t : Schema) (ht : decode? document depth d = some t) : t.ReadAt depth :=
            ih depth (Nat.lt_succ_self depth) ht
          have hput := partsReadAt_putMember hchild hproperty
          have hparts : s.PartsReadAt depth := by
            rw [decode?_succ] at h
            split at h
            · exact Document.record?_invariant hput h (partsReadAt_empty depth)
            · obtain ⟨elements, -, h⟩ := Option.bind_eq_some_iff.1 h
              exact Document.tuple?_invariant hput h (partsReadAt_empty depth)
          exact hparts.readAt

end PayloadSchema.Schema
