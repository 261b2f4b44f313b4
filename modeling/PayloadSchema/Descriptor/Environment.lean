import PayloadSchema.Descriptor.Basic
import PayloadSchema.Text.Segments

/-!
# Loading references

An environment loads the descriptor behind a handle. Whoever keeps notes of what was loaded has to know
which handles were, so the functions that load also list the handles, latest first.

* `TypeRef.load` — the descriptor behind a reference;
* `Descriptor.isTextKey` — whether the values of a type are written as texts and so may be the keys of an
  object. Pointers are followed, at most `keyHops` descriptors long and never to an identity that was
  met before.
-/

namespace PayloadSchema

/-- How the handles of deferred references are loaded. -/
structure Environment (ρ : Type) where
  load : ρ → Descriptor (TypeRef ρ)

namespace TypeRef

variable {ρ : Type}

/-- The descriptor behind a reference. -/
def load (env : Environment ρ) : TypeRef ρ → Descriptor (TypeRef ρ)
  | ready d => d
  | deferred _ handle => env.load handle

/-- The handles that loading a reference loads. -/
def loads : TypeRef ρ → List ρ
  | ready _ => []
  | deferred _ handle => [handle]

end TypeRef

namespace Descriptor

variable {ρ : Type}

/-- How many descriptors are looked at to find whether a type is a key. -/
def keyHops : Nat := 32

/-- Whether a type is a key, looking at so many descriptors, none of which may have an identity that was
met before. -/
def isTextKeyWithin (env : Environment ρ) : Nat → List String → Descriptor (TypeRef ρ) → Bool × List ρ
  | 0, _, _ => (false, [])
  | hops + 1, seen, d =>
    if seen.contains d.identity then (false, [])
    else
      match d.shape with
      | .scalar .text => (true, [])
      | .scalar .character => (true, [])
      | .scalar .uuid => (true, [])
      | .enumeration variants => (variants.all (·.payload.isNone), [])
      | .pointer target _ =>
        let (answer, loads) := isTextKeyWithin env hops (d.identity :: seen) (target.load env)
        (answer, loads ++ target.loads)
      | _ => (false, [])

/-- Whether the values of a type may be keys, and the handles that were loaded to find out. -/
def textKey (env : Environment ρ) (d : Descriptor (TypeRef ρ)) : Bool × List ρ :=
  isTextKeyWithin env keyHops [] d

/-- Whether the values of a type may be keys. -/
def isTextKey (env : Environment ρ) (d : Descriptor (TypeRef ρ)) : Bool := (textKey env d).1

/-- The module part of the identity, up to its arguments. -/
def modulePath? {τ : Type} (d : Descriptor τ) : Option String :=
  (Segments.cutLast? (String.ofList (d.identity.toList.takeWhile (· ≠ '<')))).map (·.1)

end Descriptor

end PayloadSchema
