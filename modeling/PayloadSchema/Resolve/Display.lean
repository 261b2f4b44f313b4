import PayloadSchema.Source.Tree
import PayloadSchema.Text.Segments

/-!
# Showing types

A type that cannot be resolved is known by its text: paths with their arguments, and a mark for every
other form.
-/

namespace PayloadSchema.Source

mutual
def TypeExpr.render : TypeExpr → String
  | .path _ ⟨_, segments⟩ => Segments.join (renderSegments segments)
  | .reference target => "&" ++ target.render
  | .pointer target => "*" ++ target.render
  | .slice element => "[" ++ element.render ++ "]"
  | .array element => "[" ++ element.render ++ "; _]"
  | .parenthesized inner => inner.render
  | .tuple elements => "(" ++ ", ".intercalate (renderAll elements) ++ ")"
  | .function inputs => "fn(" ++ ", ".intercalate (renderAll inputs) ++ ")"
  | .traitObject none => "dyn "
  | .traitObject (some ⟨_, segments⟩) => "dyn " ++ Segments.join (renderSegments segments)
  | .implTrait => "impl Trait"
  | .never => "!"
  | .inferred | .macroCall | .other => "_"
/-- The texts of the segments of a path, with their arguments. -/
def renderSegments : List (Segment TypeExpr) → List String
  | [] => []
  | ⟨name, _, types⟩ :: rest =>
    (match renderAll types with
      | [] => name
      | texts => name ++ "<" ++ ", ".intercalate texts ++ ">") :: renderSegments rest
def renderAll : List TypeExpr → List String
  | [] => []
  | t :: ts => t.render :: renderAll ts
end

end PayloadSchema.Source
