import PayloadSchema.Descriptor.Basic

/-!
# Well-known types

Types of the standard libraries and of a few others are known by name, wherever they come from; two names
count only if they come from the library of JSON values.
-/

namespace PayloadSchema

/-- What a well-known type is. -/
inductive WellKnown where
  | optional
  | pointer
  | list
  | map
  | scalar (scalar : Scalar)
  /-- Any JSON value. -/
  | json
  /-- Any JSON object. -/
  | jsonMap
deriving DecidableEq, Repr

namespace WellKnown

/-- The wrappers that are written as what they wrap. -/
def pointerNames : List String := ["Box", "Rc", "Arc", "Cow", "Cell", "RefCell", "Mutex", "RwLock"]

def listNames : List String :=
  ["Vec", "VecDeque", "LinkedList", "BinaryHeap", "HashSet", "BTreeSet", "IndexSet"]

/-- The containers of values under keys. -/
def mapNames : List String := ["HashMap", "BTreeMap", "IndexMap"]

def scalarOf? (name : String) : Option Scalar :=
  if ["String", "str"].contains name then some .text
  else if name = "char" then some .character
  else if name = "bool" then some .boolean
  else if ["i8", "i16", "i32", "i64", "i128", "isize"].contains name then some (.integer false)
  else if ["u8", "u16", "u32", "u64", "u128", "usize"].contains name then some (.integer true)
  else if ["f32", "f64"].contains name then some .real
  else if name = "Uuid" then some .uuid
  else if ["DateTime", "NaiveDateTime", "SystemTime", "OffsetDateTime", "PrimitiveDateTime",
      "Timestamp"].contains name then some .instant
  else if ["NaiveDate", "Date"].contains name then some .date
  else none

def jsonLibrary : String := "serde_json::"

/-- The well-known type of a name, given the path that the name stands for. -/
def ofName? (name : String) (origin : Option String) : Option WellKnown :=
  if name = "Option" then some .optional
  else if pointerNames.contains name then some .pointer
  else if listNames.contains name then some .list
  else if mapNames.contains name then some .map
  else
    match scalarOf? name with
    | some s => some (.scalar s)
    | none =>
      if origin.any (·.startsWith jsonLibrary) then
        if name = "Value" then some .json
        else if name = "Map" then some .jsonMap
        else none
      else none

end WellKnown

end PayloadSchema
