import Mathlib
import PayloadSchema.Metadata.Reader

/-!
# Items of attributes

The items in an attribute's parentheses are a key each, alone, with a literal as its value, or with further items
in parentheses (`IsItem`). They stand between commas, of which the last one may be left out (`Separated`).

An item ends where a comma or nothing follows (`Ends`), and whatever reads a key or a literal stops there:

* `Grammar.expr_of_denotes` — an expression that is a literal is read as far as it goes;
* `Metadata.Reader.itemPath_of_isKey` — so is a key.
-/

namespace PayloadSchema.Source

/-! ## Steps of a parser -/

/-- What comes after a parser goes on where it stopped. -/
theorem Parser.bind_of_eq_some {α β : Type} {p : Parser α} {f : α → Parser β} {c c' : Cursor} {a : α}
    (h : p c = some (a, c')) : (p >>= f) c = f a c' := by
  change (p c).bind (fun r => f r.1 r.2) = f a c'
  rw [h]
  rfl

/-! ## Literals -/

/-- Nothing, or a comma and what comes after it. -/
inductive Ends : List Token → Prop where
  | nothing : Ends []
  | comma (joint : Bool) (rest : List Token) : Ends (.punct ',' joint :: rest)

/-- A literal as it is written, and the expression that it is. A number may be negative. -/
inductive Denotes : List Token → Expr → Prop where
  | literal (l : Literal) : Denotes [.literal l] (.literal l)
  | true : Denotes [.name "true"] (.literal (.bool true))
  | false : Denotes [.name "false"] (.literal (.bool false))
  | negative (joint : Bool) {l : Literal} (h : Look.isNumber l = true) :
    Denotes [.punct '-' joint, .literal l] (.negated (.literal l))

variable {ts rest : List Token} {e : Expr} {c : Cursor}

/-- A grammar reads a literal as the expression that it is, and stops behind it. -/
def ReadsLiterals (g : Grammar) : Prop :=
  ∀ ts e rest c, Denotes ts e → Ends rest → c.tokens = ts ++ rest → g.expr true c = some (e, { c with tokens := rest })

/-- Two levels are enough for a literal: one for a minus sign, and one for the number after it. -/
theorem Grammar.expr_of_denotes (g : Grammar) : ReadsLiterals g.step.step := by
  intro ts e rest c h hrest hc
  rcases c with ⟨tokens, met, leftover⟩
  subst hc
  -- no operator starts with a comma, so the expression goes no further
  cases h with
  | literal l => cases hrest <;> rfl
  | true => cases hrest <;> rfl
  | false => cases hrest <;> rfl
  | negative joint h => cases hrest <;> rfl

/-- A grammar that is deep enough for the tokens reads the literals. -/
theorem Grammar.readsLiterals_forTokens (tokens : List Token) : ReadsLiterals (forTokens tokens) :=
  (nested (3 * Token.countAll tokens + 6)).expr_of_denotes

/-! ## Items -/

/-- A word of a path with the separator before it. -/
def joinedWord (word : Bool × String) : List Token := [.punct ':' true, .punct ':' word.1, .name word.2]

/-- A key as it is written: words with `::` between them, and perhaps before them. -/
inductive IsKey : List Token → MetaPath → Prop where
  | plain (first : String) (more : List (Bool × String)) :
    IsKey (.name first :: more.flatMap joinedWord) ⟨false, first :: more.map (·.2)⟩
  | rooted (joint : Bool) (first : String) (more : List (Bool × String)) :
    IsKey (.punct ':' true :: .punct ':' joint :: .name first :: more.flatMap joinedWord)
      ⟨true, first :: more.map (·.2)⟩

/-- A single word is a key. -/
theorem IsKey.word (word : String) : IsKey [.name word] ⟨false, [word]⟩ := .plain word []

/-- Lists of tokens with commas between them, of which the last one may have a comma after it. -/
inductive Separated : List (List Token) → List Token → Prop where
  | nil : Separated [] []
  | last (item : List Token) : Separated [item] item
  | cons (item : List Token) (joint : Bool) {items : List (List Token)} {tokens : List Token}
    (h : Separated items tokens) : Separated (item :: items) (item ++ .punct ',' joint :: tokens)

/-- A key alone, with a literal as its value, or with items in parentheses. -/
inductive IsItem : List Token → Prop where
  | bare {key : List Token} {path : MetaPath} (hkey : IsKey key path) : IsItem key
  | literal {key ts : List Token} {path : MetaPath} {e : Expr} (hkey : IsKey key path) (joint : Bool)
    (h : Denotes ts e) : IsItem (key ++ .punct '=' joint :: ts)
  | arguments {key inner : List Token} {path : MetaPath} {items : List (List Token)} (hkey : IsKey key path)
    (hitems : ∀ item ∈ items, IsItem item) (h : Separated items inner) :
    IsItem (key ++ [.group .parenthesis inner])

/-- What may stand behind the key of an item. -/
inductive IsValue : List Token → Prop where
  | nothing : IsValue []
  | literal {ts : List Token} {e : Expr} (joint : Bool) (h : Denotes ts e) : IsValue (.punct '=' joint :: ts)
  | arguments {inner : List Token} {items : List (List Token)} (hitems : ∀ item ∈ items, IsItem item)
    (h : Separated items inner) : IsValue [.group .parenthesis inner]

/-- An item is a key with a value behind it. -/
theorem isItem_iff {item : List Token} :
    IsItem item ↔ ∃ key path value, IsKey key path ∧ IsValue value ∧ item = key ++ value := by
  constructor
  · intro h
    cases h with
    | @bare _ path hkey => exact ⟨item, path, [], hkey, .nothing, (List.append_nil item).symm⟩
    | literal hkey joint h => exact ⟨_, _, _, hkey, .literal joint h, rfl⟩
    | arguments hkey hitems h => exact ⟨_, _, _, hkey, .arguments hitems h, rfl⟩
  · rintro ⟨key, path, value, hkey, hvalue, rfl⟩
    -- The three forms of a value are the three constructors of an item.
    cases hvalue with
    | nothing =>
        rw [List.append_nil]
        exact .bare hkey
    | literal joint h => exact .literal hkey joint h
    | arguments hitems h => exact .arguments hkey hitems h

/-- An item has a token. -/
theorem IsItem.ne_nil {item : List Token} (h : IsItem item) : item ≠ [] := by
  rcases isItem_iff.1 h with ⟨key, path, value, hkey, -, rfl⟩
  cases hkey with
  | plain first more => exact List.cons_ne_nil _ _
  | rooted joint first more => exact List.cons_ne_nil _ _

/-! ## Separated items -/

/-- There are no more items than tokens. -/
theorem Separated.length_le {items : List (List Token)} {tokens : List Token} (h : Separated items tokens)
    (hitems : ∀ item ∈ items, item ≠ []) : items.length ≤ tokens.length := by
  induction h with
  | nil => exact Nat.le_refl 0
  | last item =>
      exact List.length_pos_of_ne_nil (hitems item List.mem_cons_self)
  | cons item joint h ih =>
      have hrest := ih fun i hi => hitems i (List.mem_cons_of_mem _ hi)
      simp only [List.length_cons, List.length_append]
      omega

/-! ## Keys -/

/-- No path goes on behind a key. -/
theorem mark_of_isValue {value : List Token} (hvalue : IsValue value) (hrest : Ends rest) :
    Look.mark "::" (value ++ rest) = false := by
  cases hvalue with
  | nothing => cases hrest <;> rfl
  | literal joint h => rfl
  | arguments hitems h => rfl

end PayloadSchema.Source

namespace PayloadSchema.Metadata.Reader

open PayloadSchema.Source

/-- A word of a path behind the first, if there is one. -/
def nextWord : Parser (Option String) := do
  if ← Parser.mark? "::" then return some (← Parser.anyWord) else return none

/-- Without a separator there is no further word in a path. -/
theorem nextWord_of_mark_eq_false {c : Cursor} (h : Look.mark "::" c.tokens = false) : nextWord c = some (none, c) := by
  have hsees : Parser.sees (Look.mark "::") c = some (false, c) := by
    change some (Look.mark "::" c.tokens, c) = some (false, c)
    rw [h]
  have hwhen : Parser.when? (Look.mark "::") (Parser.mark "::") c = some (none, c) := by
    rw [Parser.when?, Parser.bind_of_eq_some hsees]
    rfl
  have hmark : Parser.mark? "::" c = some (false, c) := by
    rw [Parser.mark?, Parser.bind_of_eq_some hwhen]
    rfl
  rw [nextWord, Parser.bind_of_eq_some hmark]
  rfl

/-- The words of a path behind the first are read to the end. -/
theorem repeating_words (more : List (Bool × String)) {rest : List Token} (hrest : Look.mark "::" rest = false)
    (bound : Nat) (hbound : more.length < bound) (met : List Item) (leftover : Bool) :
    Parser.repeating.go nextWord bound ⟨more.flatMap joinedWord ++ rest, met, leftover⟩ =
      some (more.map (·.2), ⟨rest, met, leftover⟩) := by
  induction more generalizing bound with
  | nil =>
      cases bound with
      | zero => omega
      | succ bound =>
          -- No two colons follow, so the list of words ends here.
          have hnone : nextWord ⟨rest, met, leftover⟩ = some (none, ⟨rest, met, leftover⟩) :=
            nextWord_of_mark_eq_false hrest
          simp [Parser.repeating.go, hnone]
  | cons word more ih =>
      cases bound with
      | zero => omega
      | succ bound =>
          have hword : nextWord ⟨(word :: more).flatMap joinedWord ++ rest, met, leftover⟩ =
              some (some word.2, ⟨more.flatMap joinedWord ++ rest, met, leftover⟩) := by rfl
          have hmore := ih bound (by simpa using hbound)
          rw [Parser.repeating.go, hword]
          simp [hmore]

/-- The words of a path are read up to the value behind it. -/
theorem repeating_words_of_isValue (more : List (Bool × String)) {value rest : List Token} (hvalue : IsValue value)
    (hrest : Ends rest) (met : List Item) (leftover : Bool) :
    Parser.repeating nextWord ⟨more.flatMap joinedWord ++ (value ++ rest), met, leftover⟩ =
      some (more.map (·.2), ⟨value ++ rest, met, leftover⟩) := by
  apply repeating_words more (mark_of_isValue hvalue hrest)
  have hlength : more.length ≤ (more.flatMap joinedWord).length := by
    induction more with
    | nil => exact Nat.le_refl 0
    | cons word more ih =>
        simp only [List.flatMap_cons, List.length_append, List.length_cons, joinedWord]
        omega
  simp only [List.length_append]
  omega

/-- A key is read as far as it goes. -/
theorem itemPath_of_isKey {key value rest : List Token} {path : MetaPath} {c : Cursor} (hkey : IsKey key path)
    (hvalue : IsValue value) (hrest : Ends rest) (hc : c.tokens = key ++ (value ++ rest)) :
    itemPath c = some (path, { c with tokens := value ++ rest }) := by
  rcases c with ⟨tokens, met, leftover⟩
  subst hc
  have hitemPath : itemPath = (do
      let leading ← Parser.mark? "::"
      let first ← Parser.anyWord
      let more ← Parser.repeating nextWord
      return ⟨leading, first :: more⟩) := rfl
  -- With or without leading colons the words are read in the same way.
  have hwords : ∀ (leading : Bool) (first : String) (more : List (Bool × String)), (do
      let first ← Parser.anyWord
      let more ← Parser.repeating nextWord
      return (⟨leading, first :: more⟩ : MetaPath))
        ⟨.name first :: (more.flatMap joinedWord ++ (value ++ rest)), met, leftover⟩ =
      some (⟨leading, first :: more.map (·.2)⟩, ⟨value ++ rest, met, leftover⟩) := by
    intro leading first more
    have hfirst : Parser.anyWord ⟨.name first :: (more.flatMap joinedWord ++ (value ++ rest)), met, leftover⟩ =
        some (first, ⟨more.flatMap joinedWord ++ (value ++ rest), met, leftover⟩) := rfl
    have hmore := repeating_words_of_isValue more hvalue hrest met leftover
    rw [Parser.bind_of_eq_some hfirst, Parser.bind_of_eq_some hmore]
    rfl
  cases hkey with
  | plain first more =>
      have hleading : Parser.mark? "::" ⟨.name first :: more.flatMap joinedWord ++ (value ++ rest), met, leftover⟩ =
          some (false, ⟨.name first :: (more.flatMap joinedWord ++ (value ++ rest)), met, leftover⟩) := rfl
      rw [hitemPath, Parser.bind_of_eq_some hleading]
      exact hwords false first more
  | rooted joint first more =>
      have hleading : Parser.mark? "::" ⟨.punct ':' true :: .punct ':' joint :: .name first ::
            more.flatMap joinedWord ++ (value ++ rest), met, leftover⟩ =
          some (true, ⟨.name first :: (more.flatMap joinedWord ++ (value ++ rest)), met, leftover⟩) := rfl
      rw [hitemPath, Parser.bind_of_eq_some hleading]
      exact hwords true first more

end PayloadSchema.Metadata.Reader
