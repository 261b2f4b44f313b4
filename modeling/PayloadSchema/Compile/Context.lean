import PayloadSchema.Descriptor.Environment

/-!
# State of a compilation

Compiled schemas are kept in a cache, by identity and policy. A compilation has a context of its own: the
identities whose expansion is open, the module of the innermost open record that has one, how many
expansions are open, and how often a guard has cut one off.
-/

namespace PayloadSchema

abbrev SchemaCache := Dictionary Schema

/-- The key of a cached schema. Which properties are required depends on the policy, so the entries of a
policy other than the plain one have a mark. -/
def cacheKey (policy : RequiredPolicy) (identity : String) : String :=
  match policy with
  | .tagged => identity
  | .nonOptional => identity ++ "@non_optional"

/-- How many expansions may be open at once unless something else is said. -/
def defaultMaxDepth : Nat := 10

/-- The context of one compilation. -/
structure Context where
  /-- The identities whose expansion is open, each once. -/
  visited : List String := []
  /-- The module of the innermost open record that has one. -/
  modulePath : Option String := none
  depth : Nat := 0
  maxDepth : Nat := defaultMaxDepth
  /-- How often an expansion was cut off. -/
  guardHits : Nat := 0

namespace Context

/-- Whether anything was cut off. -/
def isTruncated (c : Context) : Bool := 0 < c.guardHits

/-- The context after one more expansion was cut off. -/
def hit (c : Context) : Context := { c with guardHits := c.guardHits + 1 }

/-- The context inside the expansion of a descriptor. -/
def enter {τ : Type} (c : Context) (d : Descriptor τ) : Context :=
  { c with
    visited := c.visited.insert d.identity
    depth := c.depth + 1
    modulePath :=
      match d.shape with
      | .record .. => d.modulePath?.or c.modulePath
      | _ => c.modulePath }

/-- The context after the expansion of a descriptor, given the module before it. -/
def leave {τ : Type} (c : Context) (d : Descriptor τ) (modulePath : Option String) : Context :=
  { c with visited := c.visited.erase d.identity, depth := c.depth - 1, modulePath }

end Context

/-- What a compilation works on: the cache, the context, and the handles loaded so far, latest first. -/
structure Session (ρ : Type) where
  cache : SchemaCache
  context : Context := {}
  loads : List ρ := []

end PayloadSchema
