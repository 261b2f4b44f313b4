import PayloadSchema.Descriptor.Environment

/-!
# Live types

A type of the running program describes itself: scalars and containers in one fixed way, a declared type
by a record of fields with tags, by its variants, as another name for a type, or as having no schema. A
live type is known by its full name, which is also its identity.

* `LiveType.name` — the full name;
* `LiveType.descriptor` — the description, whose nested types are loaded on demand;
* `LiveHandle.descriptor` — the same for a handle, which may carry no type.
-/

namespace PayloadSchema

/-- The scalar types of the running program. -/
inductive LiveScalar where
  | i8
  | i16
  | i32
  | i64
  | i128
  | isize
  | u8
  | u16
  | u32
  | u64
  | u128
  | usize
  | f32
  | f64
  | char
  | bool
  | str
  | string
  | systemTime
  | naiveDate
  | naiveDateTime
  | dateTime
deriving DecidableEq, Repr

namespace LiveScalar

def name : LiveScalar → String
  | i8 => "i8"
  | i16 => "i16"
  | i32 => "i32"
  | i64 => "i64"
  | i128 => "i128"
  | isize => "isize"
  | u8 => "u8"
  | u16 => "u16"
  | u32 => "u32"
  | u64 => "u64"
  | u128 => "u128"
  | usize => "usize"
  | f32 => "f32"
  | f64 => "f64"
  | char => "char"
  | bool => "bool"
  | str => "str"
  | string => "alloc::string::String"
  | systemTime => "std::time::SystemTime"
  | naiveDate => "chrono::naive::date::NaiveDate"
  | naiveDateTime => "chrono::naive::datetime::NaiveDateTime"
  | dateTime => "chrono::datetime::DateTime<chrono::offset::utc::Utc>"

def scalar : LiveScalar → Scalar
  | i8 | i16 | i32 | i64 | i128 | isize => .integer false
  | u8 | u16 | u32 | u64 | u128 | usize => .integer true
  | f32 | f64 => .real
  | char => .character
  | bool => .boolean
  | str | string => .text
  | systemTime | naiveDateTime | dateTime => .instant
  | naiveDate => .date

end LiveScalar

/-- The containers of elements. -/
inductive LiveList where
  | vec
  | deque
  | treeSet
  | hashSet
  | slice
  | array (length : Nat)
deriving DecidableEq, Repr

/-- The full name of a container of elements. -/
def LiveList.name (element : String) : LiveList → String
  | vec => "alloc::vec::Vec<" ++ element ++ ">"
  | deque => "alloc::collections::vec_deque::VecDeque<" ++ element ++ ">"
  | treeSet => "alloc::collections::btree::set::BTreeSet<" ++ element ++ ">"
  | hashSet => "std::collections::hash::set::HashSet<" ++ element ++ ">"
  | slice => "[" ++ element ++ "]"
  | array length => "[" ++ element ++ "; " ++ toString length ++ "]"

/-- The containers of values under keys. -/
inductive LiveMap where
  | hash
  | tree
deriving DecidableEq, Repr

/-- The full name of a container of values under keys. -/
def LiveMap.name (key value : String) : LiveMap → String
  | hash => "std::collections::hash::map::HashMap<" ++ key ++ ", " ++ value ++ ">"
  | tree => "alloc::collections::btree::map::BTreeMap<" ++ key ++ ", " ++ value ++ ">"

/-- The pointers. -/
inductive LivePointer where
  | box
  | rc
  | arc
deriving DecidableEq, Repr

def LivePointer.name (target : String) : LivePointer → String
  | box => "alloc::boxed::Box<" ++ target ++ ">"
  | rc => "alloc::rc::Rc<" ++ target ++ ">"
  | arc => "alloc::sync::Arc<" ++ target ++ ">"

/-- A type of the running program. -/
inductive LiveType where
  | scalar (scalar : LiveScalar)
  /-- Any JSON value. -/
  | json
  /-- Any JSON object. -/
  | jsonMap
  | list (container : LiveList) (element : LiveType)
  | map (container : LiveMap) (key value : LiveType)
  | pointer (pointer : LivePointer) (target : LiveType)
  | option (target : LiveType)
  /-- A declared type, by its full name. -/
  | declared (name : String)
deriving DecidableEq, Repr, Inhabited

namespace LiveType

def name : LiveType → String
  | scalar s => s.name
  | json => "serde_json::value::Value"
  | jsonMap => "serde_json::map::Map<alloc::string::String, serde_json::value::Value>"
  | list container element => container.name element.name
  | map container key value => container.name key.name value.name
  | pointer p target => p.name target.name
  | option target => "core::option::Option<" ++ target.name ++ ">"
  | declared name => name

/-- A reference to a type, known by its full name. -/
def toRef (t : LiveType) : TypeRef LiveType := .deferred t.name t

/-- Whether a field of the type may be absent. -/
def isOption : LiveType → Bool
  | option _ => true
  | _ => false

end LiveType

/-- A field of a declared type, with its tags. -/
structure LiveField where
  name : String
  type : LiveType
  tags : List String

/-- How a declared type describes itself. -/
inductive LiveDeclaration where
  | record (tags : List String) (fields : List LiveField)
  | enumeration (variants : List (String × Option LiveType))
  | newtype (target : LiveType)
  | unsupported (reason : String)
deriving Inhabited

/-- A field as its type describes it. -/
def LiveField.describe (f : LiveField) : Field (TypeRef LiveType) :=
  { name := f.name
    type := f.type.toRef
    metadata := FieldMetadata.ofTags f.tags
    optional := f.type.isOption }

/-- A declared type as it describes itself under a name. -/
def LiveDeclaration.describe (name : String) : LiveDeclaration → Descriptor (TypeRef LiveType)
  | record tags fields =>
    let container := ContainerMetadata.ofTags tags
    (Descriptor.record name (fields.map (·.describe)) container.casing).withDescription
      container.description
  | enumeration variants =>
    .enumeration name (variants.map fun (variant, payload) =>
      { name := variant, payload := payload.map (·.toRef) })
  | newtype target => .pointer target.toRef
  | unsupported reason => .unsupported name reason

namespace LiveType

/-- A type as it describes itself. -/
def describe (declarations : String → LiveDeclaration) : LiveType → Descriptor (TypeRef LiveType)
  | scalar s => .scalar s.name s.scalar
  | json => .dynamic json.name
  | jsonMap => .map (scalar .string).toRef json.toRef
  | list _ element => .list element.toRef
  | map _ key value => .map key.toRef value.toRef
  | pointer _ target => .pointer target.toRef
  | option target => .optional target.toRef
  | declared name => (declarations name).describe name

/-- The description of a type under its full name. -/
def descriptor (declarations : String → LiveDeclaration) (t : LiveType) :
    Descriptor (TypeRef LiveType) :=
  (t.describe declarations).withIdentity t.name

/-- How references to live types are loaded. -/
def environment (declarations : String → LiveDeclaration) : Environment LiveType :=
  ⟨descriptor declarations⟩

end LiveType

/-- A handle to a type of the running program, perhaps without any type. -/
inductive LiveHandle where
  | typed (type : LiveType)
  | untyped (name : String)

namespace LiveHandle

/-- The name of the type, or the one that was given. -/
def name : LiveHandle → String
  | typed t => t.name
  | untyped name => name

/-- Whether the handle carries no type. -/
def isOpaque : LiveHandle → Bool
  | typed _ => false
  | untyped _ => true

/-- The description of what a handle stands for: without a type, any value. -/
def descriptor (declarations : String → LiveDeclaration) : LiveHandle → Descriptor (TypeRef LiveType)
  | typed t => t.descriptor declarations
  | untyped name => .dynamic name

end LiveHandle

end PayloadSchema
