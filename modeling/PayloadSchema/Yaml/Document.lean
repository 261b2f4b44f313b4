import PayloadSchema.Yaml.Node
import PayloadSchema.Document

/-!
# YAML nodes as documents

What a node means to a reader of typed values. A text may be given by any scalar, whatever it means; a
number only by a plain one. The tags of the null value, of truth values and of numbers are obeyed where any
value is read, and a local tag has no place there.
-/

namespace PayloadSchema.Yaml

open Json (Value)

/-- The tag of a type of the format. -/
def typeTag (name : String) : String := "tag:yaml.org,2002:" ++ name

namespace Scalar

/-- Whether a scalar is written in a way that may be a number: plainly, or literally under the tag of its
type. -/
def mayBe (s : Scalar) (type : String) : Bool :=
  s.style = .plain || (s.style = .literal && s.tag = some (typeTag type))

def localTag? (tag : Option String) : Option String :=
  tag.bind fun text =>
    if text = "!" then some "!"
    else if text.startsWith "!" then some (String.ofList (text.toList.drop 1))
    else none

/-- Whether the scalar says that there is no value, unless its tag says so and its text does not. -/
def absent? (s : Scalar) : Option Bool :=
  if s.style ≠ .plain then some false
  else if s.tag = some (typeTag "null") then (if isNullWord s.text then some true else none)
  else if s.tag.isSome then some false
  else some (s.text = "" || isNullWord s.text)

/-- The name of an alternative: that of a local tag without content, or the text. -/
def choice? (s : Scalar) : Option String :=
  match localTag? s.tag with
  | some name => if s.style = .plain ∧ (s.text = "" ∨ isNullWord s.text) then some name else none
  | none => some s.text

/-- A double as a value; without digits there is none. -/
def ofReal (x : Binary64) : Value := if x.isFinite then .ofReal x else .null

/-- What a meaning stands for, given the text. -/
def ofMeaning? (text : String) : Meaning → Option Value
  | .null => some .null
  | .bool b => some (.bool b)
  | .integer n => some (.ofInt n)
  | .wide => none
  | .real x => some (ofReal x)
  | .text => some (.string text)

/-- The value that a scalar stands for. -/
def value? (s : Scalar) : Option Value :=
  match s.tag with
  | none => if s.style = .plain then ofMeaning? s.text (.ofPlain s.text) else some (.string s.text)
  | some tag =>
    if tag = typeTag "bool" then (truth? s.text).map .bool
    else if tag = typeTag "int" then
      (Meaning.ofInteger? s.text).bind (ofMeaning? s.text)
    else if tag = typeTag "float" then (double? s.text).map ofReal
    else if tag = typeTag "null" then (if isNullWord s.text then some .null else none)
    else if (localTag? s.tag).isSome then none
    else some (.string s.text)

end Scalar

namespace Node

def text? : Node → Option String
  | .scalar s => some s.text
  | _ => none

mutual
/-- The value that a node stands for, nested at most so deep. Of two members with one name the later
counts. -/
def value? (depth : Nat) : Node → Option Value
  | .scalar s => s.value?
  | .sequence tag elements =>
    if (Scalar.localTag? tag).isSome then none
    else do return .array (← values? (← Document.descend? depth) elements)
  | .mapping tag members =>
    if (Scalar.localTag? tag).isSome then none
    else do return .ofMembers (← entries? (← Document.descend? depth) members)
  | .circular => none
def values? (depth : Nat) : List Node → Option (List Value)
  | [] => some []
  | node :: nodes => do return (← node.value? depth) :: (← values? depth nodes)
/-- The members of a mapping; names are texts. -/
def entries? (depth : Nat) : List (Node × Node) → Option (List (String × Value))
  | [] => some []
  | (name, node) :: members => do
    return (← name.text?, ← node.value? depth) :: (← entries? depth members)
end

end Node

/-- A YAML text as a document. An empty scalar is a list without elements. -/
def document : Document Node where
  nesting := 128
  absent?
    | .scalar s => s.absent?
    | _ => some false
  text? := Node.text?
  natural?
    | .scalar s =>
      if s.mayBe "int" then (unsigned? s.text).filter (· < twoPow 64) else none
    | _ => none
  real?
    | .scalar s => if s.mayBe "float" then double? s.text else none
    | _ => none
  choice? _
    | .scalar s => s.choice?
    | _ => none
  value? := Node.value?
  elements?
    | .sequence _ elements => some elements
    | .scalar s => if s.style = .plain ∧ s.text = "" then some [] else none
    | _ => none
  members?
    | .mapping _ members => some (members.map fun (name, node) => (name.text?, node))
    | _ => none

end PayloadSchema.Yaml
