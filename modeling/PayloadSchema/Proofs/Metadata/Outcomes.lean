import PayloadSchema.Metadata.Setting
import PayloadSchema.Proofs.Source.Items

/-!
# What items come to

An item comes to the same wherever it stands in a list: what is read of it, and what is yielded on the way, does
not depend on the items behind it nor on how deep the grammar goes (`Reads`, `Fails`). This is so for each reader of
values (`Decided`), hence for whatever is put together from them.

A list of items comes to what its items come to, one after the other, up to the first that is not read to its end
(`Comes`).

* `Comes.run_eq` — the settings of a list, and whether all of its items are read, from what the items come to.
-/

namespace PayloadSchema.Metadata.Reader

open Source

variable {σ α β : Type}

/-! ## Steps of a reader -/

/-- What comes after a reader goes on with what was read. -/
theorem bind_of_some {r : Reader σ α} {f : α → Reader σ β} {state state' : Cursor × List σ} {a : α}
    (h : r state = (some a, state')) : (r >>= f) state = f a state' := by
  change OptionT.bind r f state = f a state'
  simp only [OptionT.bind, OptionT.mk, bind, StateT.bind, h]

/-- Behind a reader that fails, nothing more is read. -/
theorem bind_of_none {r : Reader σ α} {f : α → Reader σ β} {state state' : Cursor × List σ}
    (h : r state = (none, state')) : (r >>= f) state = (none, state') := by
  change OptionT.bind r f state = (none, state')
  simp only [OptionT.bind, OptionT.mk, bind, StateT.bind, h]
  rfl

/-- A parser that is taken leaves the settings as they are. -/
theorem take_of_some {p : Parser α} {c c' : Cursor} {a : α} (h : p c = some (a, c')) (settings : List σ) :
    take p (c, settings) = (some a, c', settings) := by
  unfold take
  dsimp only
  rw [h]

/-- A parser that fails leaves the cursor and the settings as they are. -/
theorem take_of_none {p : Parser α} {c : Cursor} (h : p c = none) (settings : List σ) :
    take p (c, settings) = (none, c, settings) := by
  unfold take
  dsimp only
  rw [h]

/-! ## Readings -/

/-- At some tokens that end where a comma or nothing follows, a reader gives a value, leaves some of the tokens and
yields some settings. -/
def Reads (r : Grammar → Reader σ α) (tokens : List Token) (a : α) (left : List Token) (yielded : List σ) : Prop :=
  ∀ g, ReadsLiterals g → ∀ c settings rest, Ends rest → c.tokens = tokens ++ rest →
    r g (c, settings) = (some a, { c with tokens := left ++ rest }, settings ++ yielded)

/-- At some tokens that end where a comma or nothing follows, a reader yields some settings and fails. -/
def Fails (r : Grammar → Reader σ α) (tokens : List Token) (yielded : List σ) : Prop :=
  ∀ g, ReadsLiterals g → ∀ c settings rest, Ends rest → c.tokens = tokens ++ rest →
    ∃ c', r g (c, settings) = (none, c', settings ++ yielded)

variable {r : Grammar → Reader σ α} {f : Grammar → α → Reader σ β} {tokens left left' : List Token}
  {yielded yielded' : List σ} {a : α} {b : β}

/-- One reading after another goes on at the tokens that are left, and the settings of both are yielded. -/
theorem Reads.bind (hr : Reads r tokens a left yielded) (hf : Reads (fun g => f g a) left b left' yielded') :
    Reads (fun g => r g >>= f g) tokens b left' (yielded ++ yielded') := by
  intro g hg c settings rest hrest hc
  beta_reduce
  rw [bind_of_some (hr g hg c settings rest hrest hc), ← List.append_assoc]
  exact hf g hg _ _ rest hrest rfl

/-- Where the second of two readings fails, the settings of the first are yielded nevertheless. -/
theorem Reads.bind_fails (hr : Reads r tokens a left yielded) (hf : Fails (fun g => f g a) left yielded') :
    Fails (fun g => r g >>= f g) tokens (yielded ++ yielded') := by
  intro g hg c settings rest hrest hc
  beta_reduce
  rw [bind_of_some (hr g hg c settings rest hrest hc), ← List.append_assoc]
  exact hf g hg _ _ rest hrest rfl

/-- Where the first of two readings fails, so do both. -/
theorem Fails.bind (hr : Fails r tokens yielded) : Fails (fun g => r g >>= f g) tokens yielded := by
  intro g hg c settings rest hrest hc
  rcases hr g hg c settings rest hrest hc with ⟨c', hfail⟩
  exact ⟨c', bind_of_none hfail⟩

theorem reads_pure (a : α) (tokens : List Token) : Reads (fun _ => (pure a : Reader σ α)) tokens a tokens [] := by
  intro g _ c settings rest _ hc
  rw [List.append_nil, ← hc]
  rfl

theorem reads_yield (setting : σ) (tokens : List Token) :
    Reads (fun _ => Reader.yield setting) tokens () tokens [setting] := by
  intro g _ c settings rest _ hc
  rw [← hc]
  rfl

/-- A parser that takes some of the tokens. -/
theorem reads_take {p : Grammar → Parser α} (h : ∀ g, ReadsLiterals g → ∀ c rest, Ends rest →
    c.tokens = tokens ++ rest → p g c = some (a, { c with tokens := left ++ rest })) :
    Reads (fun g => (take (p g) : Reader σ α)) tokens a left [] := by
  intro g hg c settings rest hrest hc
  beta_reduce
  rw [take_of_some (h g hg c rest hrest hc), List.append_nil]

/-- A parser that fails at some tokens yields nothing there. -/
theorem fails_take {p : Grammar → Parser α} (h : ∀ g, ReadsLiterals g → ∀ c rest, Ends rest →
    c.tokens = tokens ++ rest → p g c = none) : Fails (fun g => (take (p g) : Reader σ α)) tokens [] := by
  intro g hg c settings rest hrest hc
  beta_reduce
  rw [take_of_none (h g hg c rest hrest hc), List.append_nil]
  exact ⟨c, rfl⟩

/-! ## Readers of values -/

/-- What a reader comes to at a value does not depend on what comes after it. -/
def Decided (r : Grammar → Reader σ α) : Prop :=
  ∀ value, IsValue value →
    (∃ a left yielded, IsValue left ∧ Reads r value a left yielded) ∨ ∃ yielded, Fails r value yielded

theorem decided_pure (a : α) : Decided (fun _ => (pure a : Reader σ α)) :=
  fun value hvalue => .inl ⟨a, value, [], hvalue, reads_pure a value⟩

theorem decided_yield (setting : σ) : Decided (fun _ => Reader.yield setting) :=
  fun value hvalue => .inl ⟨(), value, [setting], hvalue, reads_yield setting value⟩

/-- A reader that always fails is decided. -/
theorem decided_failure : Decided (fun _ => (failure : Reader σ α)) := by
  intro value _
  refine .inr ⟨[], ?_⟩
  intro g _ c settings rest _ _
  refine ⟨c, ?_⟩
  rw [List.append_nil]
  rfl

/-- One decided reader after another is decided. -/
theorem Decided.bind (hr : Decided r) (hf : ∀ a, Decided fun g => f g a) : Decided fun g => r g >>= f g := by
  intro value hvalue
  rcases hr value hvalue with ⟨a, left, yielded, hleft, hreads⟩ | ⟨yielded, hfails⟩
  · rcases hf a left hleft with ⟨b, left', yielded', hleft', hreads'⟩ | ⟨yielded', hfails'⟩
    · exact .inl ⟨b, left', _, hleft', hreads.bind hreads'⟩
    · exact .inr ⟨_, hreads.bind_fails hfails'⟩
  · exact .inr ⟨yielded, hfails.bind⟩

/-- A choice between decided readers is decided, since what it looks at does not depend on the tokens. -/
theorem Decided.ite {r' : Grammar → Reader σ α} {p : Bool} (hr : Decided r) (hr' : Decided r') :
    Decided fun g => if p = true then r g else r' g := by
  cases p with
  | true => exact hr
  | false => exact hr'

/-- A test that a comma does not pass finds the same in a value as behind it. -/
theorem reads_sees {test : Look.Test} (htest : ∀ rest, Ends rest → test (tokens ++ rest) = test tokens) :
    Reads (fun _ => (take (Parser.sees test) : Reader σ Bool)) tokens (test tokens) tokens [] := by
  apply reads_take
  intro g _ c rest hrest hc
  have hsees : Parser.sees test c = some (test c.tokens, c) := rfl
  rw [hsees, hc, htest rest hrest, ← hc]

/-- Whether an equals sign follows shows in the value. -/
theorem reads_valued {value : List Token} (hvalue : IsValue value) :
    Reads (fun _ => (valued : Reader σ Bool)) value (Look.mark "=" value) value [] := by
  apply reads_sees
  intro rest hrest
  cases hvalue with
  | nothing => cases hrest <;> rfl
  | literal joint h => rfl
  | arguments hitems h => rfl

theorem decided_valued : Decided fun _ => (valued : Reader σ Bool) :=
  fun value hvalue => .inl ⟨_, value, [], hvalue, reads_valued hvalue⟩

/-- What stands behind an equals sign is taken as it is. -/
theorem reads_assigned {p : Grammar → Parser α} (joint : Bool) (h : ∀ g, ReadsLiterals g → ∀ c rest, Ends rest →
    c.tokens = tokens ++ rest → p g c = some (a, { c with tokens := rest })) :
    Reads (fun g => (take (do Parser.mark "="; p g) : Reader σ α)) (.punct '=' joint :: tokens) a [] [] := by
  apply reads_take
  rintro g hg ⟨_, met, leftover⟩ rest hrest rfl
  have hmark : Parser.mark "=" ⟨.punct '=' joint :: tokens ++ rest, met, leftover⟩ =
      some ((), ⟨tokens ++ rest, met, leftover⟩) := rfl
  rw [Parser.bind_of_eq_some hmark]
  exact h g hg _ rest hrest rfl

/-- What cannot be read behind an equals sign is not read with it. -/
theorem fails_assigned {p : Grammar → Parser α} (joint : Bool) (h : ∀ g, ReadsLiterals g → ∀ c rest, Ends rest →
    c.tokens = tokens ++ rest → p g c = none) :
    Fails (fun g => (take (do Parser.mark "="; p g) : Reader σ α)) (.punct '=' joint :: tokens) [] := by
  apply fails_take
  rintro g hg ⟨_, met, leftover⟩ rest hrest rfl
  have hmark : Parser.mark "=" ⟨.punct '=' joint :: tokens ++ rest, met, leftover⟩ =
      some ((), ⟨tokens ++ rest, met, leftover⟩) := rfl
  rw [Parser.bind_of_eq_some hmark]
  exact h g hg _ rest hrest rfl

/-- Where no equals sign stands there is no value. -/
theorem fails_unassigned {value : List Token} (hvalue : IsValue value) (h : Look.mark "=" value = false)
    (p : Grammar → Parser α) : Fails (fun g => (take (do Parser.mark "="; p g) : Reader σ α)) value [] := by
  apply fails_take
  rintro g - ⟨_, met, leftover⟩ rest hrest rfl
  cases hvalue with
  | nothing => cases hrest <;> rfl
  | literal joint hdenotes => cases h
  | arguments hitems hseparated => rfl

/-- A literal behind an equals sign is read as the expression that it denotes. -/
theorem reads_expression {e : Expr} (joint : Bool) (h : Denotes tokens e) :
    Reads (fun g => (expression g : Reader σ Expr)) (.punct '=' joint :: tokens) e [] [] :=
  reads_assigned joint fun _ hg c rest hrest hc => hg tokens e rest c h hrest hc

/-- Only a literal behind an equals sign is read as an expression. -/
theorem decided_expression : Decided fun g => (expression g : Reader σ Expr) := by
  intro value hvalue
  cases hvalue with
  | nothing => exact .inr ⟨[], fails_unassigned .nothing rfl _⟩
  | literal joint h => exact .inl ⟨_, [], [], .nothing, reads_expression joint h⟩
  | arguments hitems h => exact .inr ⟨[], fails_unassigned (.arguments hitems h) rfl _⟩

/-- Of all literals only a text is one. -/
theorem decided_text : Decided fun _ => (text : Reader σ String) := by
  intro value hvalue
  cases hvalue with
  | nothing => exact .inr ⟨[], fails_unassigned .nothing rfl fun _ => Parser.text⟩
  | arguments hitems h => exact .inr ⟨[], fails_unassigned (.arguments hitems h) rfl fun _ => Parser.text⟩
  | @literal ts e joint h =>
      -- whether it is a text shows in its first token
      cases h with
      | literal l =>
          cases l with
          | string s =>
              refine .inl ⟨s, [], [], .nothing, reads_assigned joint ?_⟩
              rintro g - ⟨_, met, leftover⟩ rest - rfl
              rfl
          | other | integer | float | bool =>
              refine .inr ⟨[], fails_assigned joint ?_⟩
              rintro g - ⟨_, met, leftover⟩ rest - rfl
              rfl
      | true | false | negative =>
          refine .inr ⟨[], fails_assigned joint ?_⟩
          rintro g - ⟨_, met, leftover⟩ rest - rfl
          rfl

/-- Whether an expression is a number does not depend on what comes after it. -/
theorem decided_number : Decided fun g => (number g : Reader σ Binary64) := by
  refine decided_expression.bind ?_
  intro e
  cases numberOf? e with
  | none => exact decided_failure
  | some x => exact decided_pure x

/-- Whether an expression is a length does not depend on what comes after it. -/
theorem decided_length : Decided fun g => (length g : Reader σ Nat) := by
  refine decided_number.bind ?_
  intro x
  cases lengthOf? x with
  | none => exact decided_failure
  | some n => exact decided_pure n

/-- Whatever stands behind a key can be passed over. -/
theorem reads_skipValue {value : List Token} (hvalue : IsValue value) :
    Reads (fun g => (skipValue g : Reader σ Unit)) value () [] [] := by
  have hgroup : Reads (fun _ => (take (Parser.sees (Look.group .parenthesis)) : Reader σ Bool)) value
      (Look.group .parenthesis value) value [] := by
    apply reads_sees
    intro rest hrest
    cases hvalue with
    | nothing => cases hrest <;> rfl
    | literal joint h => rfl
    | arguments hitems h => rfl
  have hvalued := reads_valued (σ := σ) hvalue
  -- an equals sign is looked for first, and a parenthesis only where there is none
  unfold skipValue
  cases hvalue with
  | nothing => exact hvalued.bind (hgroup.bind (reads_pure () []))
  | literal joint h => exact hvalued.bind ((reads_expression joint h).bind (reads_pure () []))
  | arguments hitems h =>
      refine hvalued.bind (hgroup.bind (reads_take ?_))
      rintro g - ⟨_, met, leftover⟩ rest - rfl
      cases leftover <;> rfl

/-- Passing over a value is decided. -/
theorem decided_skipValue : Decided fun g => (skipValue g : Reader σ Unit) :=
  fun _ hvalue => .inl ⟨(), [], [], .nothing, reads_skipValue hvalue⟩

/-! ## Items -/

/-- The item at the front of the tokens. -/
def entry (item : MetaPath → Reader σ Unit) : Reader σ Unit := do item (← take itemPath)

variable {item : Grammar → MetaPath → Reader σ Unit}

/-- The path at the front of an item is read, and its value is left. -/
theorem reads_itemPath {key value : List Token} {path : MetaPath} (hkey : IsKey key path) (hvalue : IsValue value) :
    Reads (fun _ => (take itemPath : Reader σ MetaPath)) (key ++ value) path value [] := by
  apply reads_take
  intro g _ c rest hrest hc
  exact itemPath_of_isKey hkey hvalue hrest (hc.trans (List.append_assoc key value rest))

/-- An item is read by its path and its value. -/
theorem Reads.entry {key value : List Token} {path : MetaPath} (hkey : IsKey key path) (hvalue : IsValue value)
    (h : Reads (fun g => item g path) value () left yielded) :
    Reads (fun g => Reader.entry (item g)) (key ++ value) () left yielded :=
  (reads_itemPath hkey hvalue).bind h

/-- An item fails if its value does. -/
theorem Fails.entry {key value : List Token} {path : MetaPath} (hkey : IsKey key path) (hvalue : IsValue value)
    (h : Fails (fun g => item g path) value yielded) :
    Fails (fun g => Reader.entry (item g)) (key ++ value) yielded :=
  (reads_itemPath hkey hvalue).bind_fails h

/-- An item cannot be read, or something of it is left. -/
def Stops (item : Grammar → MetaPath → Reader σ Unit) (tokens : List Token) (yielded : List σ) : Prop :=
  Fails (fun g => entry (item g)) tokens yielded ∨
    ∃ left, left ≠ [] ∧ IsValue left ∧ Reads (fun g => entry (item g)) tokens () left yielded

/-- What a list of items yields up to the first that is not read to its end, and whether there is none. -/
inductive Comes (item : Grammar → MetaPath → Reader σ Unit) : List (List Token) → List σ → Bool → Prop where
  | done : Comes item [] [] true
  | more {tokens : List Token} {items : List (List Token)} {yielded yielded' : List σ} {whole : Bool}
    (h : Reads (fun g => entry (item g)) tokens () [] yielded) (hmore : Comes item items yielded' whole) :
    Comes item (tokens :: items) (yielded ++ yielded') whole
  | stop {tokens : List Token} {items : List (List Token)} {yielded : List σ} (h : Stops item tokens yielded) :
    Comes item (tokens :: items) yielded false

variable {items items' : List (List Token)} {whole : Bool}

/-- Items come to something if each of their values does. -/
theorem exists_comes (hitem : ∀ path, Decided fun g => item g path) (hitems : ∀ i ∈ items, IsItem i) :
    ∃ yielded whole, Comes item items yielded whole := by
  induction items with
  | nil => exact ⟨[], true, .done⟩
  | cons tokens items ih =>
      rcases List.forall_mem_cons.1 hitems with ⟨htokens, hitems⟩
      rcases ih hitems with ⟨yielded', whole, hmore⟩
      rcases isItem_iff.1 htokens with ⟨key, path, value, hkey, hvalue, rfl⟩
      rcases hitem path value hvalue with ⟨a, left, yielded, hleft, h⟩ | ⟨yielded, h⟩
      · have hentry := h.entry hkey hvalue
        by_cases hend : left = []
        · subst hend
          exact ⟨_, whole, .more hentry hmore⟩
        · have hstops : Stops item (key ++ value) yielded := .inr ⟨left, hend, hleft, hentry⟩
          exact ⟨yielded, false, .stop hstops⟩
      · have hstops : Stops item (key ++ value) yielded := .inl (h.entry hkey hvalue)
        exact ⟨yielded, false, .stop hstops⟩

/-- Items that are all read, and others behind them. -/
theorem Comes.append (h : Comes item items yielded true) (h' : Comes item items' yielded' whole) :
    Comes item (items ++ items') (yielded ++ yielded') whole := by
  generalize hwhole : true = first at h
  induction h with
  | done => exact h'
  | more h hmore ih =>
      rw [List.append_assoc]
      exact .more h (ih hwhole)
  | stop h => cases hwhole

/-- An item that says nothing can be put into a list anywhere. -/
theorem Comes.insert {before after : List (List Token)} {extra : List Token}
    (h : Comes item (before ++ after) yielded true) (hextra : Comes item [extra] [] true) :
    Comes item (before ++ extra :: after) yielded true := by
  induction before generalizing yielded with
  | nil => exact hextra.append h
  | cons tokens before ih =>
      cases h with
      | more h hmore => exact .more h (ih hmore)

/-! ## Lists of items -/

/-- What comes after an item: the end, or a comma and more items. -/
def behind (item : MetaPath → Reader σ Unit) (budget : Nat) : Reader σ Unit := do
  if ← take Parser.atEnd then return ()
  take (Parser.mark ",")
  if ← take Parser.atEnd then return ()
  Reader.items item budget

/-- A list of items is its first item and what is behind it. -/
theorem items_succ (item : MetaPath → Reader σ Unit) (budget : Nat) :
    Reader.items item (budget + 1) = entry item >>= fun _ => behind item budget := by
  rw [entry, bind_assoc]
  rfl

/-- Where something is left of an item, the items after it are not reached. -/
theorem behind_of_left {left rest : List Token} (hne : left ≠ []) (hleft : IsValue left) {c : Cursor}
    (hc : c.tokens = left ++ rest) (item : MetaPath → Reader σ Unit) (budget : Nat) (settings : List σ) :
    behind item budget (c, settings) = (none, c, settings) := by
  rcases c with ⟨_, met, leftover⟩
  subst hc
  cases hleft with
  | nothing => exact absurd rfl hne
  | literal joint h => rfl
  | arguments hitems h => rfl

/-- A comma behind an item leads to the next one. -/
theorem behind_comma (joint : Bool) {rest : List Token} (hrest : rest ≠ []) (met : List Item) (leftover : Bool)
    (item : MetaPath → Reader σ Unit) (budget : Nat) (settings : List σ) :
    behind item budget (⟨.punct ',' joint :: rest, met, leftover⟩, settings) =
      Reader.items item budget (⟨rest, met, leftover⟩, settings) := by
  cases rest with
  | nil => exact absurd rfl hrest
  | cons token rest => rfl

/-- An item that is read to its end, and what comes after it. -/
theorem items_of_reads {i rest : List Token} (h : Reads (fun g => entry (item g)) i () [] yielded) {g : Grammar}
    (hg : ReadsLiterals g) (hrest : Ends rest) (budget : Nat) {c : Cursor} (hc : c.tokens = i ++ rest)
    (settings : List σ) : Reader.items (item g) (budget + 1) (c, settings) =
      behind (item g) budget ({ c with tokens := rest }, settings ++ yielded) := by
  rw [items_succ, bind_of_some (h g hg c settings rest hrest hc)]
  rfl

/-- An item that is not read to its end is the last that counts. -/
theorem items_of_stops {i rest : List Token} (h : Stops item i yielded) {g : Grammar} (hg : ReadsLiterals g)
    (hrest : Ends rest) (budget : Nat) {c : Cursor} (hc : c.tokens = i ++ rest) (settings : List σ) :
    ∃ c', Reader.items (item g) (budget + 1) (c, settings) = (none, c', settings ++ yielded) := by
  rw [items_succ]
  rcases h with h | ⟨left, hne, hleft, h⟩
  · rcases h g hg c settings rest hrest hc with ⟨c', hfail⟩
    exact ⟨c', bind_of_none hfail⟩
  · rw [bind_of_some (h g hg c settings rest hrest hc)]
    exact ⟨_, behind_of_left hne hleft rfl (item g) budget _⟩

/-- The items of a list are read as far as each of them is, whatever was met before them. -/
theorem Comes.items_eq (h : Comes item items yielded whole) {tokens : List Token} (hseparated : Separated items tokens)
    (hitems : ∀ i ∈ items, i ≠ []) (hne : items ≠ []) {g : Grammar} (hg : ReadsLiterals g) {budget : Nat}
    (hbudget : items.length ≤ budget) {c : Cursor} (hc : c.tokens = tokens) (settings : List σ) :
    ∃ c', Reader.items (item g) budget (c, settings) =
        (if whole = true then some () else none, c', settings ++ yielded) ∧
      (whole = true → c' = { c with tokens := [] }) := by
  -- an item takes one of the budget, and there is at least a token of each to count
  induction h generalizing tokens budget c settings with
  | done => exact absurd rfl hne
  | @stop i items yielded h =>
      cases budget with
      | zero => simp at hbudget
      | succ budget =>
          have hrest : ∃ rest, Ends rest ∧ tokens = i ++ rest := by
            cases hseparated with
            | last => exact ⟨[], .nothing, (List.append_nil i).symm⟩
            | cons _ joint _ => exact ⟨_, .comma joint _, rfl⟩
          rcases hrest with ⟨rest, hrest, htokens⟩
          rcases items_of_stops h hg hrest budget (hc.trans htokens) settings with ⟨c', hstop⟩
          exact ⟨c', hstop, fun hwhole => absurd hwhole Bool.false_ne_true⟩
  | @more i items yielded yielded' whole h hmore ih =>
      cases budget with
      | zero => simp at hbudget
      | succ budget =>
          rcases List.forall_mem_cons.1 hitems with ⟨-, hitems⟩
          cases hseparated with
          | last =>
              -- the last item has no comma after it
              cases hmore
              rw [items_of_reads h hg .nothing budget (hc.trans (List.append_nil i).symm), List.append_nil]
              exact ⟨_, rfl, fun _ => rfl⟩
          | @cons _ joint _ rest hseparated =>
              rw [items_of_reads h hg (.comma joint rest) budget hc]
              by_cases hlast : items = []
              · -- or it has one, and nothing after that
                subst hlast
                cases hmore
                cases hseparated
                rw [List.append_nil]
                exact ⟨_, rfl, fun _ => rfl⟩
              · have hrest : rest ≠ [] := by
                  have hlength := hseparated.length_le hitems
                  have hpos := List.length_pos_of_ne_nil hlast
                  exact List.ne_nil_of_length_pos (by omega)
                rw [behind_comma joint hrest, ← List.append_assoc]
                exact ih hseparated hitems hlast (by simpa using hbudget) rfl _

/-- The settings of a list of items, and whether all of the items are read. -/
theorem Comes.run_eq (h : Comes item items yielded whole) {tokens : List Token} (hseparated : Separated items tokens)
    (hitems : ∀ i ∈ items, IsItem i) {g : Grammar} (hg : ReadsLiterals g) : run (item g) tokens = (yielded, whole) := by
  have hnonempty : ∀ i ∈ items, i ≠ [] := fun i hi => (hitems i hi).ne_nil
  -- An empty list is not read at all; otherwise the first item is there to start with.
  by_cases hne : items = []
  · subst hne
    cases h
    cases hseparated
    rfl
  · have hlength := hseparated.length_le hnonempty
    have htokens : tokens ≠ [] := by
      have hpos := List.length_pos_of_ne_nil hne
      exact List.ne_nil_of_length_pos (by omega)
    rcases h.items_eq hseparated hnonempty hne hg (Nat.le_succ_of_le hlength) (c := { tokens }) rfl [] with
      ⟨c', hread, -⟩
    rw [run, if_neg (by simpa using htokens), hread]
    cases whole with
    | true => rfl
    | false => rfl

/-! ## Lists in parentheses -/

/-- Items in parentheses are read inside the group, and the tokens behind it are left. -/
theorem inParentheses_group (item : MetaPath → Reader σ Unit) {inner rest : List Token} {met : List Item}
    {leftover : Bool} {settings settings' : List σ} {result : Option Unit} {c' : Cursor}
    (h : Reader.items item (inner.length + 1) (⟨inner, met, leftover⟩, settings) = (result, c', settings')) :
    inParentheses item (⟨[.group .parenthesis inner] ++ rest, met, leftover⟩, settings) =
      (result, { c' with tokens := rest }, settings') := by
  have hread : inParentheses item (⟨[.group .parenthesis inner] ++ rest, met, leftover⟩, settings) =
      ((Reader.items item (inner.length + 1) (⟨inner, met, leftover⟩, settings)).1,
        { (Reader.items item (inner.length + 1) (⟨inner, met, leftover⟩, settings)).2.1 with tokens := rest },
        (Reader.items item (inner.length + 1) (⟨inner, met, leftover⟩, settings)).2.2) := rfl
  rw [hread, h]

/-- Where no parentheses stand there are no items. -/
theorem fails_unopened {value : List Token} (hvalue : IsValue value) (h : Look.group .parenthesis value = false) :
    Fails (fun g => inParentheses (item g)) value [] := by
  rintro g - ⟨_, met, leftover⟩ settings rest hrest rfl
  refine ⟨⟨value ++ rest, met, leftover⟩, ?_⟩
  rw [List.append_nil]
  cases hvalue with
  | nothing => cases hrest <;> rfl
  | literal joint hdenotes => rfl
  | arguments hitems hseparated => cases h

/-- No key stands in empty parentheses. -/
theorem fails_emptied : Fails (fun g => inParentheses (item g)) [.group .parenthesis []] [] := by
  rintro g - ⟨_, met, leftover⟩ settings rest - rfl
  refine ⟨⟨rest, met, leftover⟩, ?_⟩
  rw [List.append_nil]
  rfl

/-- Items in parentheses that are all read. -/
theorem Comes.reads_inParentheses (h : Comes item items yielded true) {inner : List Token}
    (hseparated : Separated items inner) (hitems : ∀ i ∈ items, IsItem i) (hne : items ≠ []) :
    Reads (fun g => inParentheses (item g)) [.group .parenthesis inner] () [] yielded := by
  have hnonempty : ∀ i ∈ items, i ≠ [] := fun i hi => (hitems i hi).ne_nil
  have hlength := Nat.le_succ_of_le (hseparated.length_le hnonempty)
  rintro g hg ⟨_, met, leftover⟩ settings rest hrest rfl
  rcases h.items_eq hseparated hnonempty hne hg hlength (c := ⟨inner, met, leftover⟩) rfl settings with
    ⟨c', hread, hc'⟩
  rw [hc' rfl] at hread
  exact Eq.trans (inParentheses_group (item g) hread) rfl

/-- Items in parentheses of which one is not read: those before it are yielded. -/
theorem Comes.fails_inParentheses (h : Comes item items yielded false) {inner : List Token}
    (hseparated : Separated items inner) (hitems : ∀ i ∈ items, IsItem i) (hne : items ≠ []) :
    Fails (fun g => inParentheses (item g)) [.group .parenthesis inner] yielded := by
  have hnonempty : ∀ i ∈ items, i ≠ [] := fun i hi => (hitems i hi).ne_nil
  have hlength := Nat.le_succ_of_le (hseparated.length_le hnonempty)
  rintro g hg ⟨_, met, leftover⟩ settings rest hrest rfl
  rcases h.items_eq hseparated hnonempty hne hg hlength (c := ⟨inner, met, leftover⟩) rfl settings with
    ⟨c', hread, -⟩
  exact ⟨_, inParentheses_group (item g) hread⟩

/-- A list in parentheses comes to the same wherever it stands. -/
theorem decided_inParentheses (hitem : ∀ path, Decided fun g => item g path) :
    Decided fun g => inParentheses (item g) := by
  intro value hvalue
  cases hvalue with
  | nothing => exact .inr ⟨[], fails_unopened .nothing rfl⟩
  | literal joint h => exact .inr ⟨[], fails_unopened (.literal joint h) rfl⟩
  | @arguments inner items hitems h =>
      -- Parentheses with nothing in them fail, and so do the other values.
      by_cases hne : items = []
      · subst hne
        cases h
        exact .inr ⟨[], fails_emptied⟩
      · rcases exists_comes hitem hitems with ⟨yielded, whole, hcomes⟩
        cases whole with
        | true => exact .inl ⟨(), [], yielded, .nothing, hcomes.reads_inParentheses h hitems hne⟩
        | false => exact .inr ⟨yielded, hcomes.fails_inParentheses h hitems hne⟩

end PayloadSchema.Metadata.Reader
