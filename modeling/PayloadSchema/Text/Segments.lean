/-!
# Segments of a path

A path of names has `::` between its segments. Cutting goes from the left, so of three colons the first
two are the separator.

* `Segments.split` — the segments, empty ones included;
* `Segments.cutLast?` — what is before and after the last separator.
-/

namespace PayloadSchema.Segments

/-- The segments of a list of characters. -/
def splitChars : List Char → List (List Char)
  | [] => [[]]
  | ':' :: ':' :: rest => [] :: splitChars rest
  | c :: rest =>
    match splitChars rest with
    | part :: more => (c :: part) :: more
    | [] => [[c]]

def split (text : String) : List String := (splitChars text.toList).map String.ofList

def join (segments : List String) : String := "::".intercalate segments

/-- What is before and after the last two colons that follow each other. -/
def cutLastChars? : List Char → Option (List Char × List Char)
  | [] => none
  | c :: rest =>
    match cutLastChars? rest with
    | some (before, after) => some (c :: before, after)
    | none =>
      match c, rest with
      | ':', ':' :: after => some ([], after)
      | _, _ => none

/-- What is before and after the last two colons that follow each other. -/
def cutLast? (text : String) : Option (String × String) :=
  (cutLastChars? text.toList).map fun (before, after) => (String.ofList before, String.ofList after)

end PayloadSchema.Segments
