import PayloadSchema.Proofs.Compile.Required
import PayloadSchema.Proofs.Dictionary

/-!
# What is put into a record

A field puts entries into the properties of a record: those of its type if it is merged, otherwise one of its
own. The properties of a record are these entries, put in one after the other, and what it requires are the
names that the fields demand, each where it is demanded first. So a record is made of two lists, which are
appended when the lists of fields are (`assembleMembers_eq`). The properties of an enumeration are the
entries of its variants with payloads (`assembleProperties_eq`).
-/

namespace PayloadSchema.Compile

variable {ρ : Type}

/-! ## Required names -/

theorem addRequired_of_mem {required : List String} {name : String} (h : name ∈ required) :
    addRequired required name = required :=
  if_pos (List.contains_iff_mem.2 h)

/-- Names that were demanded already, each once, are demanded all the same. -/
theorem foldl_addRequired_foldl (names required : List String) :
    (names.foldl addRequired []).foldl addRequired required = names.foldl addRequired required := by
  induction names using List.reverseRecOn with
  | nil => rfl
  | append_singleton names name ih =>
      rw [List.foldl_append, List.foldl_append, List.foldl_cons, List.foldl_nil, List.foldl_cons,
        List.foldl_nil]
      by_cases hname : name ∈ names.foldl addRequired []
      · -- the name is demanded again, which changes neither list
        have hmem : name ∈ names := (mem_foldl_addRequired.1 hname).resolve_left List.not_mem_nil
        rw [addRequired_of_mem hname, addRequired_of_mem (mem_foldl_addRequired.2 (.inr hmem)), ih]
      · have hnew : addRequired (names.foldl addRequired []) name = names.foldl addRequired [] ++ [name] :=
          if_neg fun hmem => hname (List.contains_iff_mem.1 hmem)
        rw [hnew, List.foldl_append, ih, List.foldl_cons, List.foldl_nil]

/-! ## Records -/

/-- The entries that a field puts into the properties of the record. -/
def Answered.entries (casing : Option Casing) (e : Answered ρ) : List (String × Schema) :=
  if e.Merged then e.2.properties.getD [] else [(e.wireName casing, e.1.metadata.constrain e.2)]

/-- The names of what a field puts in are those that it contributes. -/
theorem Answered.keys_entries (casing : Option Casing) (e : Answered ρ) :
    Dictionary.keys (e.entries casing) = e.contributed casing := by
  unfold entries contributed
  split
  · rfl
  · rfl

/-- A field is added by putting in its entries and demanding its names, merged or not. -/
theorem add_eq (m : Members) (policy : RequiredPolicy) (casing : Option Casing) (e : Answered ρ) :
    m.add policy casing e.1 e.2 =
      { properties := m.properties.insertAll (e.entries casing)
        required := (e.demanded policy casing).foldl addRequired m.required } := by
  unfold Answered.entries Answered.demanded
  by_cases hmerged : e.Merged
  · rw [add_of_merged policy casing hmerged, if_pos hmerged, if_pos hmerged]
    by_cases hlacking : e.Lacking
    · rw [if_pos hlacking, if_pos hlacking, List.foldl_nil]
    · rw [if_neg hlacking, if_neg hlacking]
  · rw [add_of_not_merged policy casing hmerged, if_neg hmerged, if_neg hmerged]
    split
    · rfl
    · rfl

/-- The members of a record are what its fields put in and what they demand. -/
theorem assembleMembers_eq (policy : RequiredPolicy) (casing : Option Casing)
    (fields : List (Field (TypeRef ρ))) (answers : List Schema) (m : Members) :
    assembleMembers policy casing fields answers m =
      { properties := m.properties.insertAll ((fields.zip answers).flatMap (Answered.entries casing))
        required :=
          ((fields.zip answers).flatMap (Answered.demanded policy casing)).foldl addRequired m.required } := by
  unfold assembleMembers
  induction fields.zip answers generalizing m with
  | nil => rfl
  | cons e entries ih =>
      rw [List.foldl_cons, ih, add_eq, List.flatMap_cons, List.flatMap_cons, Dictionary.insertAll_append,
        List.foldl_append]

/-- The names of what the fields put in are those that they contribute. -/
theorem keys_flatMap_entries (casing : Option Casing) (entries : List (Answered ρ)) :
    Dictionary.keys (entries.flatMap (Answered.entries casing)) =
      entries.flatMap (Answered.contributed casing) := by
  unfold Dictionary.keys
  rw [List.map_flatMap]
  exact congrArg (List.flatMap · entries) (funext fun e => e.keys_entries casing)

/-! ## Enumerations -/

/-- The properties of an enumeration are the answers for its variants under their names. -/
theorem assembleProperties_eq (variants : List (Variant (TypeRef ρ))) (answers : List Schema)
    (properties : Dictionary Schema) :
    assembleProperties variants answers properties =
      properties.insertAll ((variants.zip answers).map fun e => (e.1.name, e.2)) := by
  unfold assembleProperties Dictionary.insertAll
  rw [List.foldl_map]

end PayloadSchema.Compile
