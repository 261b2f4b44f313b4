import PayloadSchema.Text.Letter

/-!
# Casing of property names

A record may name one rule by which its fields, or the variants of an enumeration, are spelled on the
wire. Every rule but the plainest works on the snake form of a name, in which words are lower case and
one underscore stands between them.

* `snakeCase` — the snake form: a word starts at a capital after a lower-case letter or a digit, and at
  the last capital of a run of capitals that a lower-case letter follows;
* `Casing.ofField`, `Casing.ofVariant` — the spelling of a field's and of a variant's name.
-/

namespace PayloadSchema

open Text (isUpper isLower lower upper)

/-! ## The snake form -/

/-- Whether a capital starts a word: it follows a lower-case letter or a digit, or it is the last of a
run of capitals and a lower-case letter follows. -/
def startsWord (previous : Option Char) (rest : List Char) : Bool :=
  match previous with
  | none => false
  | some p => isLower p || p.isDigit || (isUpper p && rest.head?.any isLower)

/-- The snake form of `rest`, given the character before it in the name and the last one written so
far. A hyphen or a space becomes an underscore, except at the start and after an underscore. -/
def snakeFrom (previous written : Option Char) : List Char → List Char
  | [] => []
  | c :: rest =>
    if c = '-' ∨ c = ' ' then
      if written = none ∨ written = some '_' then snakeFrom (some c) written rest
      else '_' :: snakeFrom (some c) (some '_') rest
    else if isUpper c then
      let small := lower c
      let gap := if startsWord previous rest && written != some '_' then ['_'] else []
      gap ++ small ++ snakeFrom (some c) (small.getLast?.or written) rest
    else c :: snakeFrom (some c) (some c) rest

/-- The snake form of a list of characters. -/
def snakeChars (name : List Char) : List Char := snakeFrom none none name

/-- The snake form of a name: `HTTPServer` becomes `http_server`. -/
def snakeCase (name : String) : String := String.ofList (snakeChars name.toList)

/-! ## The rules -/

/-- A rule for spelling the names in one container. -/
inductive Casing where
  | lower
  | upper
  | pascal
  | camel
  | snake
  | screamingSnake
  | kebab
  | screamingKebab
deriving DecidableEq, Repr

namespace Casing

/-- The rule that a container's annotation names; every rule is called by its own example. -/
def ofName? : String → Option Casing
  | "lowercase" => some .lower
  | "UPPERCASE" => some .upper
  | "PascalCase" => some .pascal
  | "camelCase" => some .camel
  | "snake_case" => some .snake
  | "SCREAMING_SNAKE_CASE" => some .screamingSnake
  | "kebab-case" => some .kebab
  | "SCREAMING-KEBAB-CASE" => some .screamingKebab
  | _ => none

/-- The words of a snake form run together: underscores go, and the character after one is a capital.
The flag says whether the first character is to be one too. -/
def joinWords (capital : Bool) : List Char → List Char
  | [] => []
  | c :: rest =>
    if c = '_' then joinWords true rest
    else if capital then Text.upper c ++ joinWords false rest
    else c :: joinWords false rest

/-- Underscores as hyphens. -/
def hyphenate (cs : List Char) : List Char := cs.map fun c => if c = '_' then '-' else c

/-- A field's name under a rule, as characters. -/
def fieldChars (rule : Casing) (name : List Char) : List Char :=
  let snake := snakeChars name
  match rule with
  | .lower | .snake => snake
  | .upper | .screamingSnake => snake.map Char.toUpper
  | .kebab => hyphenate snake
  | .screamingKebab => (hyphenate snake).map Char.toUpper
  | .pascal => joinWords true snake
  | .camel => joinWords false (snake.dropWhile (· = '_'))

/-- A variant's name under a rule, as characters: it is written in Pascal form already, and the rules
that change case only do no more than that. -/
def variantChars (rule : Casing) (name : List Char) : List Char :=
  match rule with
  | .lower => name.map Char.toLower
  | .upper => name.map Char.toUpper
  | .pascal => name
  | rule => rule.fieldChars name

def ofField (rule : Casing) (name : String) : String := String.ofList (rule.fieldChars name.toList)

/-- A variant's name under a rule. -/
def ofVariant (rule : Casing) (name : String) : String :=
  String.ofList (rule.variantChars name.toList)

end Casing

end PayloadSchema
