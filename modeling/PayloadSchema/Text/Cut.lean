/-!
# Cutting text

A list of characters is cut in two at a mark, which is left out. Where the mark does not occur there is
nothing after it.

* `Text.cutAt` — cut at the first of a character;
* `Text.cutLoneColon` — cut at the first colon that stands alone.
-/

namespace PayloadSchema.Text

/-- What is before and, if it is there, after the first of a character. -/
def cutAt (mark : Char) : List Char → List Char × Option (List Char)
  | [] => ([], none)
  | c :: rest =>
    if c = mark then ([], some rest)
    else
      let (before, after) := cutAt mark rest
      (c :: before, after)

/-- What is before and, if it is there, after the first colon without a colon next to it. -/
def cutLoneColon (cs : List Char) : List Char × Option (List Char) := go false cs
where
  /-- The same for the rest after a colon or after another character. -/
  go (afterColon : Bool) : List Char → List Char × Option (List Char)
    | [] => ([], none)
    | c :: rest =>
      if c = ':' ∧ !afterColon ∧ rest.head? ≠ some ':' then ([], some rest)
      else
        let (before, after) := go (c == ':') rest
        (c :: before, after)

end PayloadSchema.Text
