import PayloadSchema.Proofs.Schema.Storage
import PayloadSchema.Stored.File

/-!
# Schema files that are written and read

A schema file in JSON is read back as it was written, except that infinite bounds and samples that are
`null` are lost (`SchemaFile.settled`). Nothing is lost of a file that was itself read from a text.

* `SchemaFile.ofText_render` — what is read of a file that was written;
* `SchemaFile.ofText_render_of_ofText` — a file that was read is read again from its own text.

Numbers are the exception that is made throughout: that a double is read back as the same double is not
shown here, but asked for (`Number.Legible`).
-/

namespace PayloadSchema

open Json (Value Draft Number document putAll putAll_append putAll_member sublist_member forall_mem_member)

namespace SchemaFile

/-- A file as it is read after it was written. -/
def settled (f : SchemaFile) : SchemaFile :=
  { f with request := f.request.map Schema.settled, response := f.response.map Schema.settled }

def schemas (f : SchemaFile) : List Schema := f.request.toList ++ f.response.toList

/-- The schemas of a file are that of the request and that of the response. -/
theorem mem_schemas_iff {f : SchemaFile} {s : Schema} :
    s ∈ f.schemas ↔ f.request = some s ∨ f.response = some s := by
  simp [schemas]

/-- Nothing is lost of a file if and only if nothing is lost of its schemas. -/
theorem settled_eq_self_iff {f : SchemaFile} :
    f.settled = f ↔ ∀ s ∈ f.schemas, s.Everywhere Schema.PartsSettled := by
  have hpart (part : Option Schema) : part.map Schema.settled = part ↔
      ∀ s, part = some s → s.Everywhere Schema.PartsSettled := by
    cases part <;> simp [Schema.settled_eq_self_iff]
  have hparts : f.settled = f ↔
      f.request.map Schema.settled = f.request ∧ f.response.map Schema.settled = f.response := by
    constructor
    · intro h
      exact ⟨congrArg request h, congrArg response h⟩
    · rintro ⟨hrequest, hresponse⟩
      rw [settled, hrequest, hresponse]
  rw [hparts, hpart, hpart]
  simp only [mem_schemas_iff, or_imp, forall_and]

/-! ## Reading back -/

/-- The members that are written for a file. -/
def members (f : SchemaFile) : List (String × Value) :=
  [("version", .ofInt f.version), ("handlerName", .string f.handlerName)]
    ++ Schema.member "requestSchema" Schema.toValue f.request
    ++ Schema.member "responseSchema" Schema.toValue f.response

theorem toValue_eq (f : SchemaFile) : f.toValue = .object f.members := rfl

/-- What holds of the version, of the name and of the schemas holds of all members. -/
theorem forall_mem_members {P : Value → Prop} {f : SchemaFile} (hversion : P (.ofInt f.version))
    (hname : P (.string f.handlerName)) : (∀ m ∈ f.members, P m.2) ↔ ∀ s ∈ f.schemas, P s.toValue := by
  simp only [members, List.forall_mem_append, forall_mem_member, List.forall_mem_cons, hversion, hname,
    true_and, mem_schemas_iff, or_imp, forall_and]
  simp

/-- The members of a file are written in the order of its parts. -/
theorem members_sublist (f : SchemaFile) : (f.members.map (·.1)).Sublist partNames := by
  simp only [members, List.map_append]
  exact ((List.Sublist.refl _).append (sublist_member "requestSchema" _ _)).append
    (sublist_member "responseSchema" _ _)

/-- A file is nested one level deeper than its schemas. -/
theorem nesting_toValue_le_iff {f : SchemaFile} {depth : Nat} :
    f.toValue.nesting ≤ depth + 1 ↔ ∀ s ∈ f.schemas, s.toValue.nesting ≤ depth := by
  rw [toValue_eq]
  exact Value.nesting_object_le_iff.trans
    (forall_mem_members (P := (·.nesting ≤ depth)) (Nat.zero_le depth) (Nat.zero_le depth))

/-- The numbers of a file are its version and those of its schemas. -/
theorem allNumbers_toValue_iff {P : Number → Prop} {f : SchemaFile} (hversion : P (.integer f.version)) :
    f.toValue.AllNumbers P ↔ ∀ s ∈ f.schemas, s.toValue.AllNumbers P := by
  have hnumber : (Value.ofInt f.version).AllNumbers P := by
    intro n hn
    rw [List.mem_singleton.1 hn]
    exact hversion
  have hname : (Value.string f.handlerName).AllNumbers P := by
    intro n hn
    cases hn
  rw [toValue_eq, Value.allNumbers_object_iff]
  exact forall_mem_members (P := (·.AllNumbers P)) hnumber hname

/-- A file is read from its draft by its members, one after the other. -/
theorem decode?_draft (f : SchemaFile) : decode? document f.toValue.draft =
    (putAll (putPart document 126) {} f.members).bind fun parts => do
      return { version := ← parts.version, handlerName := ← parts.handlerName
               request := parts.request, response := parts.response } := by
  have hrecord : Document.record? partNames (putPart document 126) {} (Value.draftMembers f.members) =
      putAll (putPart document 126) {} f.members :=
    Json.record?_draftMembers ({} : Parts) (by decide) (members_sublist f)
  rw [← hrecord]
  rfl

/-- The schemas of a file are put together to what is kept of them. -/
theorem decode?_toValue {f : SchemaFile} (hversion : f.version < twoPow 32)
    (hstorable : ∀ s ∈ f.schemas, s.Everywhere Schema.PartsStorable)
    (hlegible : ∀ s ∈ f.schemas, s.toValue.Legible)
    (hdepth : f.toValue.nesting ≤ Draft.nestingLimit) : decode? document f.toValue.draft = some f.settled := by
  have hdepth : ∀ s ∈ f.schemas, s.toValue.nesting ≤ 126 := nesting_toValue_le_iff.1 hdepth
  -- Both schemas are members of the same kind, written only when they are there.
  have hpart (name : String) (g : Parts → Option Schema → Parts) {part : Option Schema}
      (hpart : ∀ s, part = some s → s ∈ f.schemas)
      (hput : ∀ d p, putPart document 126 name d p =
        (document.optional? (Schema.decode? document 126) d).bind fun part => some (g p part))
      {p : Parts} (hp : g p none = p) :
      putAll (putPart document 126) p (Schema.member name Schema.toValue part) =
        some (g p (part.map Schema.settled)) := by
    refine putAll_member hput (fun h => by rw [h]; rfl) ?_ hp
    intro s hs
    rw [hs]
    have hmem := hpart s hs
    have hread := Schema.decode?_toValue (hstorable s hmem) (hlegible s hmem) (hdepth s hmem)
    exact Json.optional?_of_read (Schema.toValue_draft_ne_null s) hread
  -- The version is read into a smaller word than other numbers.
  have hversion' : putPart document 126 "version" (Value.ofInt f.version).draft {} =
      some { version := some f.version } := by
    have hword : f.version < twoPow 64 := Nat.lt_trans hversion (by decide)
    have hread : (document.natural? (Value.ofInt f.version).draft).filter (· < twoPow 32) = some f.version := by
      rw [(Json.natural?_draft hword).2]
      simp [hversion]
    simp only [putPart, hread, Option.bind_eq_bind, Option.bind_some]
    rfl
  have hfront : putAll (putPart document 126) {}
      [("version", Value.ofInt f.version), ("handlerName", .string f.handlerName)] =
        some { version := some f.version, handlerName := some f.handlerName } := by
    have happend := putAll_append (putPart document 126) {} [("version", Value.ofInt f.version)]
      [("handlerName", .string f.handlerName)]
    rw [Json.putAll_singleton, hversion'] at happend
    exact happend
  have hparts : putAll (putPart document 126) {} f.members = some
      { version := some f.version, handlerName := some f.handlerName
        request := f.settled.request, response := f.settled.response } := by
    rw [members, putAll_append, putAll_append, hfront, Option.bind_some,
      hpart "requestSchema" (fun p part => { p with request := part })
        (fun s hs => mem_schemas_iff.2 (.inl hs)) (fun _ _ => rfl) rfl, Option.bind_some,
      hpart "responseSchema" (fun p part => { p with response := part })
        (fun s hs => mem_schemas_iff.2 (.inr hs)) (fun _ _ => rfl) rfl]
    rfl
  rw [decode?_draft, hparts]
  rfl

/-- Whatever is read of the draft of a file, the handler is the same, and a schema is there if it was there. -/
theorem same_of_decode?_draft {f g : SchemaFile} (h : decode? document f.toValue.draft = some g) :
    g.handlerName = f.handlerName ∧ g.request.isSome = f.request.isSome ∧
      g.response.isSome = f.response.isSome := by
  -- a schema that is written is never read as none
  have hpart {name : String} {part : Option Schema} (put : Parts → Option Schema → Parts)
      (hput : ∀ d p, putPart document 126 name d p =
        (document.optional? (Schema.decode? document 126) d).bind fun part => some (put p part))
      {p p' : Parts} (hp : put p none = p)
      (h : putAll (putPart document 126) p (Schema.member name Schema.toValue part) = some p') :
      ∃ read, p' = put p read ∧ read.isSome = part.isSome := by
    cases part with
    | none => exact ⟨none, (Option.some.inj h).symm.trans hp.symm, rfl⟩
    | some s =>
        have h := (Json.putAll_singleton (putPart document 126) p name s.toValue).symm.trans h
        rw [hput, Json.optional?_of_ne _ (Schema.toValue_draft_ne_null s)] at h
        obtain ⟨read, hread, heq⟩ := Option.bind_eq_some_iff.1 h
        obtain ⟨t, -, rfl⟩ := Option.map_eq_some_iff.1 hread
        exact ⟨some t, (Option.some.inj heq).symm, rfl⟩
  rw [decode?_draft, members, putAll_append, putAll_append] at h
  obtain ⟨parts, hparts, h⟩ := Option.bind_eq_some_iff.1 h
  obtain ⟨named, hnamed, hparts⟩ := Option.bind_eq_some_iff.1 hparts
  obtain ⟨front, hfront, hnamed⟩ := Option.bind_eq_some_iff.1 hnamed
  have hfront : ∃ version, front = { version, handlerName := some f.handlerName } := by
    rw [← List.singleton_append, putAll_append, Json.putAll_singleton] at hfront
    obtain ⟨first, hversion, hname⟩ := Option.bind_eq_some_iff.1 hfront
    obtain ⟨version, -, heq⟩ := Option.bind_eq_some_iff.1 hversion
    rw [Json.putAll_singleton, ← Option.some.inj heq] at hname
    exact ⟨some version, (Option.some.inj hname).symm⟩
  obtain ⟨version, rfl⟩ := hfront
  obtain ⟨request, rfl, hrequest⟩ :=
    hpart (fun p part => { p with request := part }) (fun _ _ => rfl) rfl hnamed
  obtain ⟨response, rfl, hresponse⟩ :=
    hpart (fun p part => { p with response := part }) (fun _ _ => rfl) rfl hparts
  obtain ⟨version, -, h⟩ := Option.bind_eq_some_iff.1 h
  cases h
  exact ⟨rfl, hrequest, hresponse⟩

/-- The text of a file is read by its draft. -/
theorem ofText_render_eq (f : SchemaFile) :
    SchemaFile.ofText .json (f.render .json) =
      match decode? document f.toValue.draft with
      | none => .error (.malformed .json)
      | some file => if file.version = schemaFileVersion then .ok file else .error (.version file.version) := by
  have htext : Draft.ofText? (f.render .json) = some f.toValue.draft := Value.ofText?_render f.toValue
  have hread : Format.json.read? (fun doc => decode? doc) (f.render .json) = decode? document f.toValue.draft :=
    congrArg (·.bind (decode? document)) htext
  rw [← hread]
  rfl

/-- The numbers in a file are legible if the doubles are and if its schemas can be kept. -/
theorem legible_toValue {f : SchemaFile} (hversion : f.version = schemaFileVersion)
    (hstorable : ∀ s ∈ f.schemas, s.Everywhere Schema.PartsStorable) (hreals : f.toValue.LegibleReals) :
    f.toValue.Legible := by
  have hnumber : ∀ i, Number.integer f.version = .integer i → (Number.integer f.version).Legible := by
    intro i _
    rw [hversion]
    exact Number.legible_integer (by decide) (by decide)
  have hschemas : ∀ s ∈ f.schemas, s.toValue.LegibleIntegers := by
    intro s hs
    exact Schema.legibleIntegers_toValue (hstorable s hs)
  exact Value.legible_iff.2 ⟨(allNumbers_toValue_iff hnumber).2 hschemas, hreals⟩

/-- Whatever is read of a file that was written, the handler is the same, and a schema is there if it was
there. -/
theorem same_of_ofText_render {f g : SchemaFile} (h : SchemaFile.ofText .json (f.render .json) = .ok g) :
    g.handlerName = f.handlerName ∧ g.request.isSome = f.request.isSome ∧
      g.response.isSome = f.response.isSome := by
  rw [ofText_render_eq] at h
  split at h
  next => cases h
  next read hread =>
    split at h
    next =>
      cases h
      exact same_of_decode?_draft hread
    next => cases h

/-- **What is read of a file that was written.** The file is there again, but for infinite bounds and samples
that are `null`. -/
theorem ofText_render {f : SchemaFile} (hversion : f.version = schemaFileVersion)
    (hstorable : ∀ s ∈ f.schemas, s.Everywhere Schema.PartsStorable)
    (hreals : f.toValue.LegibleReals) (hdepth : f.toValue.nesting ≤ Draft.nestingLimit) :
    SchemaFile.ofText .json (f.render .json) = .ok f.settled := by
  have hword : f.version < twoPow 32 := by
    rw [hversion]
    decide
  -- The version is legible as every small number is, so the reals are all that has to be assumed.
  have hlegible := legible_toValue hversion hstorable hreals
  have hnumber : (Number.integer f.version).isFinite = true → (Number.integer f.version).Legible := by
    intro _
    rw [hversion]
    exact Number.legible_integer (by decide) (by decide)
  have hschemas : ∀ s ∈ f.schemas, s.toValue.Legible := (allNumbers_toValue_iff hnumber).1 hlegible
  have hsettled : f.settled.version = schemaFileVersion := hversion
  rw [ofText_render_eq, decode?_toValue hword hstorable hschemas hdepth]
  dsimp only
  rw [if_pos hsettled]

/-! ## Reading again -/

/-- What can be said of the parts of a file that are read. -/
structure PartsReadAt (depth : Nat) (p : Parts) : Prop where
  request : ∀ s, p.request = some s → s.ReadAt depth
  response : ∀ s, p.response = some s → s.ReadAt depth

/-- A part that is put in was read at the depth. -/
theorem partsReadAt_putPart (depth : Nat) (name : String) (d : Draft) (p p' : Parts)
    (h : putPart document depth name d p = some p') (hp : PartsReadAt depth p) : PartsReadAt depth p' := by
  unfold putPart at h
  split at h
  case h_5 => cases h
  all_goals
    obtain ⟨part, hpart, heq⟩ := Option.bind_eq_some_iff.1 h
    cases heq
  case h_1 => exact { hp with }
  case h_2 => exact { hp with }
  case h_3 =>
    have hrequest : ∀ s, part = some s → s.ReadAt depth := by
      intro s hs
      exact Schema.readAt_of_decode? (Json.of_optional? hpart s hs).1
    exact { hp with request := hrequest }
  case h_4 =>
    have hresponse : ∀ s, part = some s → s.ReadAt depth := by
      intro s hs
      exact Schema.readAt_of_decode? (Json.of_optional? hpart s hs).1
    exact { hp with response := hresponse }

/-- The schemas of a file that was read are such as can be read. -/
theorem readAt_of_ofText {text : String} {f : SchemaFile} (h : SchemaFile.ofText .json text = .ok f) :
    f.version = schemaFileVersion ∧ ∀ s ∈ f.schemas, s.ReadAt 126 := by
  have hread : (Draft.ofText? text).bind (decode? document) = some f ∧ f.version = schemaFileVersion := by
    rw [SchemaFile.ofText, Format.read?] at h
    split at h
    next => cases h
    next file hfile =>
      split at h
      next hversion =>
        cases h
        exact ⟨hfile, hversion⟩
      next => cases h
  obtain ⟨hread, hversion⟩ := hread
  refine ⟨hversion, ?_⟩
  obtain ⟨d, -, hd⟩ := Option.bind_eq_some_iff.1 hread
  -- Whatever the order of the members, each schema was read one level below the file.
  have hput := partsReadAt_putPart 126
  have hstart : PartsReadAt 126 {} := by
    constructor <;> rintro _ ⟨⟩
  obtain ⟨parts, hparts, hfile⟩ : ∃ parts : Parts, PartsReadAt 126 parts ∧
      f.request = parts.request ∧ f.response = parts.response := by
    -- The file may be written as an object or as an array of its parts; both end here.
    have hfinish {parts : Parts} (hparts : PartsReadAt 126 parts)
        (h : (do return { version := ← parts.version, handlerName := ← parts.handlerName
                          request := parts.request, response := parts.response }) = some f) :
        ∃ parts : Parts, PartsReadAt 126 parts ∧ f.request = parts.request ∧ f.response = parts.response := by
      obtain ⟨version, -, h⟩ := Option.bind_eq_some_iff.1 h
      obtain ⟨handlerName, -, h⟩ := Option.bind_eq_some_iff.1 h
      cases h
      exact ⟨parts, hparts, rfl, rfl⟩
    unfold decode? at hd
    obtain ⟨depth, hdepth, hd⟩ := Option.bind_eq_some_iff.1 hd
    cases hdepth
    dsimp only at hd
    split at hd
    · obtain ⟨parts, hparts, hd⟩ := Option.bind_eq_some_iff.1 hd
      exact hfinish (Document.record?_invariant hput hparts hstart) hd
    · obtain ⟨elements, -, hd⟩ := Option.bind_eq_some_iff.1 hd
      obtain ⟨parts, hparts, hd⟩ := Option.bind_eq_some_iff.1 hd
      exact hfinish (Document.tuple?_invariant hput hparts hstart) hd
  intro s hs
  rcases mem_schemas_iff.1 hs with hs | hs
  · exact hparts.request s (hfile.1 ▸ hs)
  · exact hparts.response s (hfile.2 ▸ hs)

/-- **A file that was read is read again.** Whatever the text was from which it was read, its own text gives
the same file, if the doubles in it are read back as the same doubles. -/
theorem ofText_render_of_ofText (text : String) (f : SchemaFile) (h : SchemaFile.ofText .json text = .ok f)
    (hreals : f.toValue.LegibleReals) : SchemaFile.ofText .json (f.render .json) = .ok f := by
  obtain ⟨hversion, hread⟩ := readAt_of_ofText h
  have hstorable : ∀ s ∈ f.schemas, s.Everywhere Schema.PartsStorable := by
    intro s hs
    exact (hread s hs).storable
  have hdepth : f.toValue.nesting ≤ Draft.nestingLimit :=
    nesting_toValue_le_iff.2 fun s hs => (hread s hs).nesting
  -- What was read lost its infinite bounds and null samples already, and settles to itself.
  have hsettled : f.settled = f :=
    settled_eq_self_iff.2 fun s hs => Schema.settled_eq_self_iff.1 (hread s hs).settled
  rw [ofText_render hversion hstorable hreals hdepth, hsettled]

/-- A text of a schema file with members in another order, one more, one that is `null`, and an integer for
a bound. -/
def reordered : String :=
  "\x7b\"responseSchema\": null, \"more\": [1e5],\n \"handlerName\": \"h\", \"version\": 1,\t"
    ++ "\"requestSchema\": \x7b\"minimum\": 5, \"type\": \"number\", "
    ++ "\"enum\": [\x7b\"b\": 0.5, \"a\": 2\x7d], \"example\": null\x7d\x7d"

theorem ofText_render_reordered : ∃ f, SchemaFile.ofText .json reordered = .ok f ∧ f.toValue.LegibleReals ∧
    SchemaFile.ofText .json (f.render .json) = .ok f := by
  -- The reader is run once, for the numbers it meets; the text itself is never compared.
  have hnumbers : ((SchemaFile.ofText .json reordered).toOption.map fun f => f.toValue.numbers) =
      some [.integer 1, .real (.ofNat 5), .integer 2, .real (.ofRatio false 1 2)] := by
    decide +kernel
  have hlegible : ∀ n ∈ [Number.real (.ofNat 5), .real (.ofRatio false 1 2)], n.Legible := by
    decide +kernel
  cases hread : SchemaFile.ofText .json reordered with
  | error e =>
      rw [hread] at hnumbers
      cases hnumbers
  | ok f =>
      rw [hread] at hnumbers
      have hnumbers : f.toValue.numbers = _ := Option.some.inj hnumbers
      have hreals : f.toValue.LegibleReals := by
        intro x hx _
        rw [hnumbers] at hx
        refine hlegible _ ?_
        simpa using hx
      exact ⟨f, rfl, hreals, ofText_render_of_ofText reordered f hread hreals⟩

end SchemaFile

end PayloadSchema
