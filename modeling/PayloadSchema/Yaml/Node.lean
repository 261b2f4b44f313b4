import PayloadSchema.Yaml.Lexer

/-!
# Nodes

A text holds one node: a scalar, a sequence or a mapping. An alias is the node of the last anchor of its
name before it; one inside the node that has the anchor is a circle. A node may have a tag, of which the
handle is replaced by its meaning.

* `Node.ofTokens?` — the node of a list of tokens;
* `Node.ofText?` — the node of a text.
-/

namespace PayloadSchema.Yaml

/-- A node. -/
inductive Node where
  | scalar (scalar : Scalar)
  | sequence (tag : Option String) (elements : List Node)
  | mapping (tag : Option String) (members : List (Node × Node))
  /-- An alias inside the node that it stands for. -/
  | circular
deriving Inhabited

namespace Node

/-- A scalar without text. -/
def empty (tag : Option String) : Node := .scalar { text := "", style := .plain, tag }

end Node

/-- An anchor with its node; an open one has none yet. -/
structure Anchor where
  name : String
  node : Option Node

/-- Tokens of which some are read. -/
structure Reading where
  tokens : List Token
  /-- The meanings of the handles of tags. -/
  handles : List (String × String) := []
  /-- The anchors so far, the latest first. -/
  anchors : List Anchor := []

/-- A step of reading, which may fail. -/
abbrev Reader := StateT Reading Option

namespace Reader

/-- The next token, if there is any. -/
def peek : Reader (Option Token) := return (← get).tokens.head?

def advance : Reader Unit := modify fun r => { r with tokens := r.tokens.drop 1 }

/-- Passes over the next token if it is a given one. -/
def skip? (t : Token) : Reader Bool := do
  if (← peek) = some t then
    advance
    return true
  else return false

/-- Passes over a given token, which has to be next. -/
def expect (t : Token) : Reader Unit := do
  if !(← skip? t) then failure

/-- Whether the next token is one of several. -/
def follows (ts : List Token) : Reader Bool := return (← peek).any ts.contains

/-! ## Properties of nodes -/

/-- What may stand before a node. -/
structure Properties where
  anchor : Option String := none
  tag : Option String := none

/-- The tag of a handle and a rest. -/
def resolveTag (handle rest : String) : Reader String := do
  if handle = "" then return rest
  match (← get).handles.lookup handle with
  | some meaning => return meaning ++ rest
  | none => failure

/-- The anchor and the tag before a node, in either order. -/
def properties : Reader Properties := do
  match ← peek with
  | some (.anchor name) => do
    advance
    match ← peek with
    | some (.tag handle rest) => do
      advance
      return { anchor := some name, tag := some (← resolveTag handle rest) }
    | _ => return { anchor := some name }
  | some (.tag handle rest) => do
    advance
    match ← peek with
    | some (.anchor name) => do
      advance
      return { anchor := some name, tag := some (← resolveTag handle rest) }
    | _ => return { tag := some (← resolveTag handle rest) }
  | _ => return {}

def aliased (name : String) : Reader Node := do
  match (← get).anchors.find? (·.name == name) with
  | some anchor => return anchor.node.getD .circular
  | none => failure

/-- A node read under an anchor, if it has one: it is known by the anchor as soon as it is complete. -/
def anchored (anchor : Option String) (read : Reader Node) : Reader Node := do
  match anchor with
  | none => read
  | some name => do
    let place := (← get).anchors.length
    modify fun r => { r with anchors := ⟨name, none⟩ :: r.anchors }
    let node ← read
    modify fun r =>
      { r with anchors := r.anchors.set (r.anchors.length - 1 - place) ⟨name, some node⟩ }
    return node

/-! ## The grammar -/

/-- The node that properties without content stand for. -/
def missing (p : Properties) : Reader Node :=
  if p.anchor.isSome || p.tag.isSome then return .empty p.tag else failure

/-- What ends an element or a member in a block. -/
def blockStops : List Token := [.dash, .key, .value, .blockEnd]

mutual
/-- A node. Inside brackets and braces there are no blocks. Elements without a block of their own may be the
value of a key. -/
def node (budget : Nat) (inBlock elementsAllowed : Bool) : Reader Node :=
  match budget with
  | 0 => failure
  | budget + 1 => do
    match ← peek with
    | some (.aliasOf name) => do
      advance
      aliased name
    | _ => do
      let p ← properties
      anchored p.anchor (content budget inBlock elementsAllowed p)
def content (budget : Nat) (inBlock elementsAllowed : Bool) (p : Properties) : Reader Node :=
  match budget with
  | 0 => failure
  | budget + 1 => do
    match ← peek with
    | some (.scalar text style) => do
      advance
      return .scalar { text, style, tag := if p.tag = some "!" then none else p.tag }
    | some .openBracket => do
      advance
      return .sequence p.tag (← elements budget true)
    | some .openBrace => do
      advance
      return .mapping p.tag (← members budget true)
    | some .blockSequence =>
      if inBlock then do
        advance
        return .sequence p.tag (← blockElements budget true)
      else missing p
    | some .blockMapping =>
      if inBlock then do
        advance
        return .mapping p.tag (← blockMembers budget)
      else missing p
    | some .dash =>
      if elementsAllowed then return .sequence p.tag (← blockElements budget false) else missing p
    | _ => missing p
/-- A node, or an empty one if one of several tokens follows. -/
def nodeUnless (budget : Nat) (stops : List Token) (inBlock elementsAllowed : Bool) : Reader Node :=
  match budget with
  | 0 => failure
  | budget + 1 => do
    if ← follows stops then return .empty none else node budget inBlock elementsAllowed
/-- The elements of a block, which has an end of its own or ends before the first token that is no element
mark. -/
def blockElements (budget : Nat) (closed : Bool) : Reader (List Node) :=
  match budget with
  | 0 => failure
  | budget + 1 => do
    if ← skip? .dash then
      let stops := if closed then [.dash, .blockEnd] else blockStops
      let element ← nodeUnless budget stops true false
      return element :: (← blockElements budget closed)
    else
      if closed then expect .blockEnd
      return []
/-- The members of a block, each with a key mark. Either half of a member may be empty. -/
def blockMembers (budget : Nat) : Reader (List (Node × Node)) :=
  match budget with
  | 0 => failure
  | budget + 1 => do
    let stops := [.key, .value, .blockEnd]
    if ← skip? .blockEnd then return []
    expect .key
    let key ← nodeUnless budget stops true true
    let value ← if ← skip? .value then nodeUnless budget stops true true else pure (.empty none)
    return (key, value) :: (← blockMembers budget)
/-- The elements inside brackets; a key makes a mapping of one member. -/
def elements (budget : Nat) (first : Bool) : Reader (List Node) :=
  match budget with
  | 0 => failure
  | budget + 1 => do
    if ← skip? .closeBracket then return []
    if !first then expect .comma
    if ← skip? .closeBracket then return []
    let element ←
      if ← skip? .key then do
        let member ← pair budget
        pure (.mapping none [member])
      else node budget false false
    return element :: (← elements budget false)
/-- The member of a mapping without braces inside brackets. -/
def pair (budget : Nat) : Reader (Node × Node) :=
  match budget with
  | 0 => failure
  | budget + 1 => do
    let key ←
      if ← follows [.value, .comma, .closeBracket] then do
        advance
        pure (.empty none)
      else node budget false false
    let value ←
      if ← skip? .value then nodeUnless budget [.comma, .closeBracket] false false
      else pure (.empty none)
    return (key, value)
/-- The members inside braces; one without a key mark is a key without a value. -/
def members (budget : Nat) (first : Bool) : Reader (List (Node × Node)) :=
  match budget with
  | 0 => failure
  | budget + 1 => do
    if ← skip? .closeBrace then return []
    if !first then expect .comma
    if ← skip? .closeBrace then return []
    let member ←
      if ← skip? .key then do
        let key ← nodeUnless budget [.value, .comma, .closeBrace] false false
        let value ←
          if ← skip? .value then nodeUnless budget [.comma, .closeBrace] false false
          else pure (.empty none)
        pure (key, value)
      else do
        let key ← node budget false false
        pure (key, .empty none)
    return member :: (← members budget false)
end

/-! ## Documents -/

/-- The meanings that handles have without a directive. -/
def defaultHandles : List (String × String) := [("!", "!"), ("!!", "tag:yaml.org,2002:")]

/-- The directives before a document, after those read: at most one version, which has to be known, and
each handle once. -/
def directives : List Token → Bool → List (String × String) → Option (List (String × String) × List Token)
  | .version major minor :: rest, versioned, handles =>
    if versioned ∨ major ≠ 1 ∨ (minor ≠ 1 ∧ minor ≠ 2) then none else directives rest true handles
  | .handle name meaning :: rest, versioned, handles =>
    if (handles.lookup name).isSome then none else directives rest versioned ((name, meaning) :: handles)
  | rest, _, handles => some (handles, rest)

end Reader

namespace Node

/-- Whether a token starts a directive. -/
def isDirective : Token → Bool
  | .version .. => true
  | .handle .. => true
  | _ => false

/-- The node of a list of tokens, which hold at most one document; without one the node is empty. -/
def ofTokens? (tokens : List Token) : Option Node := do
  if tokens = [] then return .empty none
  let (handles, rest) ← Reader.directives tokens false []
  let explicit := rest.head? = some .documentStart
  if tokens.head?.any isDirective ∧ !explicit then none
  let rest := if explicit then rest.drop 1 else rest
  let stops : List Token := [.documentStart, .documentEnd]
  let isEmpty := explicit && (rest = [] || rest.head?.any fun t => stops.contains t || isDirective t)
  let start : Reading := { tokens := rest, handles := handles ++ Reader.defaultHandles }
  let (node, after) ←
    if isEmpty then pure (.empty none, start)
    else (Reader.node (4 * rest.length + 4) true false).run start
  if after.tokens.all (· = .documentEnd) then some node else none

def ofText? (text : String) : Option Node := (tokens? text).bind ofTokens?

end Node

end PayloadSchema.Yaml
