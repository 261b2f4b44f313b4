import PayloadSchema.Text.Blank

/-!
# Matching text

A matcher answers with every rest that may be left after what it describes, the shortest match last. Where
the list is empty, it does not match.
-/

namespace PayloadSchema.Text

/-- What may be left after a match. -/
abbrev Matcher := List Char → List (List Char)

namespace Matcher

/-- Nothing. -/
def empty : Matcher := fun cs => [cs]

def andThen (a b : Matcher) : Matcher := fun cs => (a cs).flatMap b

def all (ms : List Matcher) : Matcher := ms.foldr andThen empty

def exactly (text : List Char) : Matcher := fun cs =>
  if text.isPrefixOf cs then [cs.drop text.length] else []

def text (t : String) : Matcher := exactly t.toList

def one (p : Char → Bool) : Matcher
  | c :: cs => if p c then [cs] else []
  | [] => []

/-- Any number of characters with a property. -/
def many (p : Char → Bool) : Matcher
  | c :: cs => if p c then many p cs ++ [c :: cs] else [c :: cs]
  | [] => [[]]

/-- Blanks, perhaps none. -/
def blanks : Matcher := many isBlank

/-- Blanks, at least one. -/
def gap : Matcher := andThen (one isBlank) blanks

/-- What a matcher describes, or nothing. -/
def optional (m : Matcher) : Matcher := fun cs => m cs ++ [cs]

end Matcher

/-- The rests of a text from the start of each line on. -/
def lineStarts : List Char → List (List Char)
  | [] => [[]]
  | cs => cs :: after cs
where
  /-- From the start of each line but the first. -/
  after : List Char → List (List Char)
    | [] => []
    | '\n' :: cs => cs :: after cs
    | _ :: cs => after cs

/-- Whether a matcher matches at the start of some line. -/
def anyLine (m : Matcher) (text : String) : Bool :=
  (lineStarts text.toList).any fun cs => !(m cs).isEmpty

end PayloadSchema.Text
