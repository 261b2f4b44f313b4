import Mathlib.Data.List.Nodup
import PayloadSchema.Live.Basic
import PayloadSchema.Proofs.Descriptor.Term

/-!
# Full names tell live types apart

The full name of a live type is written as a term. The heads of containers differ, and so do the names of
scalars, so a full name is that of one type, provided that the declared types have plain names which are
not those of scalars or JSON values.

* `LiveType.toList_name` — a full name is a written term;
* `LiveType.name_injective` — live types of one full name are the same.
-/

namespace PayloadSchema

/-! ## Names of declared types -/

namespace LiveScalar

def all : List LiveScalar :=
  [i8, i16, i32, i64, i128, isize, u8, u16, u32, u64, u128, usize, f32, f64, char, bool, str, string,
    systemTime, naiveDate, naiveDateTime, dateTime]

/-- Every scalar is in the list of all. -/
theorem mem_all (s : LiveScalar) : s ∈ all := by
  cases s <;> decide

theorem name_injective {s s' : LiveScalar} (h : s.name = s'.name) : s = s' :=
  List.inj_on_of_nodup_map (f := name) (by decide +kernel) (mem_all s) (mem_all s') h

/-- The term that the full name is read as. -/
def term : LiveScalar → Term
  | dateTime => .node "chrono::datetime::DateTime" [.node "chrono::offset::utc::Utc" []]
  | s => .node s.name []

theorem toList_name (s : LiveScalar) : s.name.toList = s.term.chars := by
  cases s <;> decide +kernel

theorem plain (s : LiveScalar) : s.term.HasPlainHeads := by
  have hplain : ∀ s ∈ all, s ≠ dateTime → IsPlain s.name := by decide +kernel
  have hheads : IsPlain "chrono::datetime::DateTime" ∧ IsPlain "chrono::offset::utc::Utc" := by
    decide +kernel
  cases s
  case dateTime => exact ⟨hheads.1, ⟨hheads.2, trivial⟩, trivial⟩
  all_goals exact ⟨hplain _ (mem_all _) (by decide), trivial⟩

end LiveScalar

/-! ## Names of containers -/

/-- The term of a container of elements, given that of the elements. -/
def LiveList.term (element : Term) : LiveList → Term
  | vec => .node "alloc::vec::Vec" [element]
  | deque => .node "alloc::collections::vec_deque::VecDeque" [element]
  | treeSet => .node "alloc::collections::btree::set::BTreeSet" [element]
  | hashSet => .node "std::collections::hash::set::HashSet" [element]
  | slice => .slice element
  | array length => .array element (toString length)

/-- The name of a list of a type is its term, written out. -/
theorem LiveList.toList_name {text : String} {k : Term} (h : text.toList = k.chars) (container : LiveList) :
    (container.name text).toList = (container.term k).chars := by
  cases container with
  | slice => exact Term.toList_slice h
  | array length => exact Term.toList_array h _
  | _ => exact Term.toList_around (by decide) h

/-- The head of a container of values under keys. -/
def LiveMap.head : LiveMap → String
  | hash => "std::collections::hash::map::HashMap"
  | tree => "alloc::collections::btree::map::BTreeMap"

/-- The name of a map between types is its term, written out. -/
theorem LiveMap.toList_name {text text' : String} {k k' : Term} (h : text.toList = k.chars)
    (h' : text'.toList = k'.chars) (container : LiveMap) :
    (container.name text text').toList = (Term.node container.head [k, k']).chars := by
  cases container <;> exact Term.toList_around_two (by decide) h h'

def LivePointer.head : LivePointer → String
  | box => "alloc::boxed::Box"
  | rc => "alloc::rc::Rc"
  | arc => "alloc::sync::Arc"

/-- The name of a pointer to a type is its term, written out. -/
theorem LivePointer.toList_name {text : String} {k : Term} (h : text.toList = k.chars) (p : LivePointer) :
    (p.name text).toList = (Term.node p.head [k]).chars := by
  cases p <;> exact Term.toList_around (by decide) h

/-- A full name that a declared type may have: it has no delimiters and is not that of a scalar or of a JSON
value. -/
structure IsDeclaredName (name : String) : Prop where
  plain : IsPlain name
  scalar : ∀ s : LiveScalar, name ≠ s.name
  json : name ≠ LiveType.json.name

instance (name : String) : Decidable (IsDeclaredName name) :=
  decidable_of_iff (IsPlain name ∧ (∀ s ∈ LiveScalar.all, name ≠ s.name) ∧ name ≠ LiveType.json.name)
    ⟨fun ⟨plain, scalar, json⟩ => ⟨plain, fun s => scalar s s.mem_all, json⟩,
      fun ⟨plain, scalar, json⟩ => ⟨plain, fun s _ => scalar s, json⟩⟩

namespace LiveType

/-- The declared types in a type have names that declared types may have. -/
def HasProperNames : LiveType → Prop
  | list _ element => element.HasProperNames
  | map _ key value => key.HasProperNames ∧ value.HasProperNames
  | pointer _ target => target.HasProperNames
  | option target => target.HasProperNames
  | declared name => IsDeclaredName name
  | _ => True

/-! ## Full names are written terms -/

/-- The term that the full name is read as. -/
def term : LiveType → Term
  | scalar s => s.term
  | json => .node "serde_json::value::Value" []
  | jsonMap =>
    .node "serde_json::map::Map" [.node "alloc::string::String" [], .node "serde_json::value::Value" []]
  | list container element => container.term element.term
  | map container key value => .node container.head [key.term, value.term]
  | pointer p target => .node p.head [target.term]
  | option target => .node "core::option::Option" [target.term]
  | declared name => .node name []

theorem toList_name (t : LiveType) : t.name.toList = t.term.chars := by
  induction t with
  | scalar s => exact s.toList_name
  | json => decide
  | jsonMap =>
      -- The one name in this case is spelled out, so its parts are read off by evaluation.
      have hname : jsonMap.name =
          "serde_json::map::Map<" ++ (scalar .string).name ++ ", " ++ json.name ++ ">" := by decide +kernel
      rw [hname]
      exact Term.toList_around_two (by decide) (by decide) (by decide)
  | list container element ih => exact LiveList.toList_name ih container
  | map container key value ihkey ih => exact LiveMap.toList_name ihkey ih container
  | pointer p target ih => exact LivePointer.toList_name ih p
  | option target ih => exact Term.toList_around (by decide) ih
  | declared name =>
      show name.toList = name.toList ++ []
      rw [List.append_nil]

/-- A number is written without delimiters. -/
theorem plain_toString (n : Nat) : IsPlain (toString n) := by
  intro c hc
  have hdigit : c.isDigit := by
    refine Nat.isDigit_of_mem_toDigits (b := 10) (n := n) (by decide) (by decide) ?_
    rwa [← Nat.toList_repr]
  have hdelimiters : delimiters.all (fun c => !c.isDigit) = true := by decide
  intro hmem
  have hother := List.all_eq_true.1 hdelimiters c hmem
  rw [hdigit] at hother
  cases hother

theorem plain (t : LiveType) (h : t.HasProperNames) : t.term.HasPlainHeads := by
  -- The paths of the library are plain; a declared name is so by assumption.
  have hheads : ∀ head ∈ ["serde_json::value::Value", "serde_json::map::Map", "alloc::string::String",
      "alloc::vec::Vec", "alloc::collections::vec_deque::VecDeque", "alloc::collections::btree::set::BTreeSet",
      "std::collections::hash::set::HashSet", "std::collections::hash::map::HashMap",
      "alloc::collections::btree::map::BTreeMap", "alloc::boxed::Box", "alloc::rc::Rc", "alloc::sync::Arc",
      "core::option::Option"], IsPlain head := by
    decide +kernel
  induction t with
  | scalar s => exact s.plain
  | json => exact ⟨hheads _ (by decide), trivial⟩
  | jsonMap =>
      exact ⟨hheads _ (by decide), ⟨hheads _ (by decide), trivial⟩, ⟨hheads _ (by decide), trivial⟩, trivial⟩
  | list container element ih =>
      cases container with
      | slice => exact ih h
      | array length => exact ⟨ih h, plain_toString length⟩
      | _ => exact ⟨hheads _ (by decide), ih h, trivial⟩
  | map container key value ihkey ih =>
      cases container <;> exact ⟨hheads _ (by decide), ihkey h.1, ih h.2, trivial⟩
  | pointer p target ih => cases p <;> exact ⟨hheads _ (by decide), ih h, trivial⟩
  | option target ih => exact ⟨hheads _ (by decide), ih h, trivial⟩
  | declared name => exact ⟨h.plain, trivial⟩

/-! ## Reading a term -/

/-- The types of one other by their heads. -/
def unary : List (String × (LiveType → LiveType)) :=
  [("alloc::vec::Vec", list .vec), ("alloc::collections::vec_deque::VecDeque", list .deque),
    ("alloc::collections::btree::set::BTreeSet", list .treeSet),
    ("std::collections::hash::set::HashSet", list .hashSet), ("alloc::boxed::Box", pointer .box),
    ("alloc::rc::Rc", pointer .rc), ("alloc::sync::Arc", pointer .arc), ("core::option::Option", option)]

/-- The types of two others by their heads. -/
def binary : List (String × (LiveType → LiveType → LiveType)) :=
  [("std::collections::hash::map::HashMap", map .hash), ("alloc::collections::btree::map::BTreeMap", map .tree)]

/-- The type that a name without arguments is that of. -/
def ofName (name : String) : LiveType :=
  match LiveScalar.all.find? (·.name = name) with
  | some s => scalar s
  | none => if name = json.name then json else declared name

/-- The live type that a term is read as, if any. -/
def ofTerm? : Term → Option LiveType
  | .node head [] => some (ofName head)
  | .node head [k] =>
    match unary.lookup head with
    | some wrap => wrap <$> ofTerm? k
    | none => some (scalar .dateTime)
  | .node head [k, k'] =>
    match binary.lookup head with
    | some wrap => do
      let key ← ofTerm? k
      return wrap key (← ofTerm? k')
    | none => some jsonMap
  | .node _ (_ :: _ :: _ :: _) => none
  | .slice element => list .slice <$> ofTerm? element
  | .array element length => list (.array (Nat.ofDigitChars 10 length.toList 0)) <$> ofTerm? element

/-- A term with a known head and one argument is read as the type around that of its argument. -/
theorem ofTerm?_unary {head : String} {wrap : LiveType → LiveType} (hhead : unary.lookup head = some wrap)
    {k : Term} {t : LiveType} (h : ofTerm? k = some t) : ofTerm? (.node head [k]) = some (wrap t) := by
  rw [ofTerm?, hhead, h]
  rfl

/-- A term with a known head and two arguments is read as the type around those of its arguments. -/
theorem ofTerm?_binary {head : String} {wrap : LiveType → LiveType → LiveType}
    (hhead : binary.lookup head = some wrap) {k k' : Term} {t t' : LiveType} (h : ofTerm? k = some t)
    (h' : ofTerm? k' = some t') : ofTerm? (.node head [k, k']) = some (wrap t t') := by
  rw [ofTerm?, hhead, h, h']
  rfl

/-- The name of a scalar is read as the scalar. -/
theorem ofName_scalar {s : LiveScalar} : ofName s.name = scalar s := by
  unfold ofName
  have hfound : LiveScalar.all.find? (·.name = s.name) = some s := by
    cases hfind : LiveScalar.all.find? (·.name = s.name) with
    | none => exact absurd (List.find?_eq_none.1 hfind s s.mem_all) (by simp)
    | some s' =>
        have hname := List.find?_some hfind
        rw [LiveScalar.name_injective (of_decide_eq_true hname)]
  rw [hfound]

/-- A name of its own is read as that of a declared type. -/
theorem ofName_declared {name : String} (h : IsDeclaredName name) : ofName name = declared name := by
  unfold ofName
  have hnone : LiveScalar.all.find? (·.name = name) = none := by
    rw [List.find?_eq_none]
    intro s _ heq
    exact h.scalar s (of_decide_eq_true heq).symm
  rw [hnone]
  exact if_neg h.json

/-- What a full name is read as is the type. -/
theorem ofTerm?_term (t : LiveType) (h : t.HasProperNames) : ofTerm? t.term = some t := by
  induction t with
  | scalar s =>
      cases s
      case dateTime => rfl
      all_goals exact congrArg some ofName_scalar
  | json => rfl
  | jsonMap => rfl
  | list container element ih =>
      cases container with
      | slice =>
          rw [term, LiveList.term, ofTerm?, ih h]
          rfl
      -- A length is written in decimal and read back.
      | array length =>
          have hlength : (toString length).toList = Nat.toDigits 10 length := Nat.toList_repr
          rw [term, LiveList.term, ofTerm?, ih h, hlength, Nat.ofDigitChars_ten_toDigits]
          rfl
      | _ => exact ofTerm?_unary rfl (ih h)
  | map container key value ihkey ih =>
      cases container <;> exact ofTerm?_binary rfl (ihkey h.1) (ih h.2)
  | pointer p target ih => cases p <;> exact ofTerm?_unary rfl (ih h)
  | option target ih => exact ofTerm?_unary rfl (ih h)
  | declared name => exact congrArg some (ofName_declared h)

/-- Types with proper names have terms of their own. -/
theorem term_injective {t t' : LiveType} (h : t.HasProperNames) (h' : t'.HasProperNames)
    (heq : t.term = t'.term) : t = t' := by
  have hread : some t = some t' := by rw [← ofTerm?_term t h, heq, ofTerm?_term t' h']
  exact Option.some.inj hread

/-- Live types of one full name are the same. -/
theorem name_injective {t t' : LiveType} (h : t.HasProperNames) (h' : t'.HasProperNames)
    (heq : t.name = t'.name) : t = t' := by
  have hchars : t.term.chars = t'.term.chars := by rw [← t.toList_name, heq, t'.toList_name]
  exact term_injective h h' (Term.chars_injective (t.plain h) (t'.plain h') hchars)

end LiveType

end PayloadSchema
