import PayloadSchema.Proofs.Resolve.Twins

/-!
# Twins can be recognized

Whether a type in a file spells a live type is computed along the live type, and so is whether the
declarations of a project describe themselves under full names.

* `FileScope.spells_iff` — what is recognized is what is spelled;
* `Declaration.isTwin_iff` — the same for declarations;
* `Twins.ofPairs` — declarations with full names that are all recognized.
-/

namespace PayloadSchema

/-! ## Attributes -/

namespace Source

mutual
/-- Whether two token trees are the same. -/
def Token.same : Token → Token → Bool
  | .name text, .name text' => text == text'
  | .punct char joint, .punct char' joint' => char == char' && joint == joint'
  | .literal value, .literal value' => value == value'
  | .group delimiter inner, .group delimiter' inner' => delimiter == delimiter' && sameAll inner inner'
  | _, _ => false
/-- Whether two lists of token trees are the same. -/
def sameAll : List Token → List Token → Bool
  | [], [] => true
  | t :: ts, u :: us => t.same u && sameAll ts us
  | _, _ => false
end

mutual
/-- Tokens are compared for equality. -/
theorem Token.same_iff : ∀ t u : Token, t.same u = true ↔ t = u
  | .name text, u => by
      cases u <;> simp [Token.same]
  | .punct char joint, u => by
      cases u <;> simp [Token.same]
  | .literal value, u => by
      cases u <;> simp [Token.same]
  | .group delimiter inner, u => by
      cases u with
      | group delimiter' inner' => simp [Token.same, sameAll_iff inner inner']
      | _ => simp [Token.same]
/-- Lists of tokens are compared one by one. -/
theorem sameAll_iff : ∀ ts us : List Token, sameAll ts us = true ↔ ts = us
  | [], us => by
      cases us <;> simp [sameAll]
  | t :: ts, us => by
      cases us with
      | nil => simp [sameAll]
      | cons u us => simp [sameAll, Token.same_iff t u, sameAll_iff ts us]
end

instance : DecidableEq Token := fun t u => decidable_of_iff _ (Token.same_iff t u)

deriving instance DecidableEq for Expr
deriving instance DecidableEq for Meta

end Source

/-! ## Types -/

namespace Source.TypeExpr

/-- A type without the parentheses around it. -/
def bare : TypeExpr → TypeExpr
  | parenthesized inner => inner.bare
  | type => type

/-- Whether a type is a slice or an array of elements with a property. -/
def isSequence (p : TypeExpr → Bool) : TypeExpr → Bool
  | slice element => p element
  | array element => p element
  | _ => false

/-- Whether a type is a path that has a property of its names and of the arguments of the last one. -/
def isPath (p : List String → List TypeExpr → Bool) : TypeExpr → Bool
  | path false ⟨_, segments⟩ => segments.getLast?.any fun last => p (segments.map (·.name)) last.types
  | _ => false

@[simp] theorem bare_path (qualified : Bool) (p : Path TypeExpr) : (path qualified p).bare = path qualified p :=
  rfl

@[simp] theorem bare_slice (element : TypeExpr) : (slice element).bare = slice element :=
  rfl

@[simp] theorem bare_array (element : TypeExpr) : (array element).bare = array element :=
  rfl

variable {p : List String → List TypeExpr → Bool} {type : TypeExpr}

/-- Whether a path passes a test shows in its names and in the arguments of its last segment. -/
@[simp] theorem isPath_append (leading : Bool) (before : List (Segment TypeExpr)) (last : Segment TypeExpr) :
    isPath p (.path false ⟨leading, before ++ [last]⟩) = p (FileScope.namesOf before last) last.types := by
  simp [isPath, FileScope.namesOf]

/-- Only a path that is not qualified passes a test on paths. -/
theorem exists_of_isPath (h : type.isPath p = true) :
    ∃ leading before last, type = .path false ⟨leading, before ++ [last]⟩ ∧
      p (FileScope.namesOf before last) last.types = true := by
  unfold isPath at h
  split at h
  next leading segments =>
    rcases List.eq_nil_or_concat segments with rfl | ⟨before, last, rfl⟩
    · cases h
    · refine ⟨leading, before, last, by rw [List.concat_eq_append], ?_⟩
      simpa [FileScope.namesOf] using h
  next => cases h

end Source.TypeExpr

/-- Whether a live type is a text or a character. -/
def LiveType.isText : LiveType → Bool
  | scalar s => s.scalar = .text ∨ s.scalar = .character
  | _ => false

/-- Only a text or a character is a text. -/
theorem LiveType.exists_of_isText {live : LiveType} (h : live.isText = true) :
    ∃ s : LiveScalar, live = scalar s ∧ (s.scalar = .text ∨ s.scalar = .character) := by
  cases live with
  | scalar s => exact ⟨s, rfl, of_decide_eq_true h⟩
  | _ => cases h

namespace FileScope

variable (v : View) (scope : FileScope) (pairs : Declaration → String → Prop)

/-- Parentheses around a type change nothing of what it spells. -/
theorem Spells.of_bare {own : Option String} {type : Source.TypeExpr} {live : LiveType}
    (h : scope.Spells v pairs own type.bare live) : scope.Spells v pairs own type live := by
  fun_induction Source.TypeExpr.bare type with
  | case1 inner ih => exact .parenthesized (ih h)
  | case2 type _ => exact h

variable [∀ d name, Decidable (pairs d name)] (own : Option String)

/-- Whether a type in a file spells a live type. -/
def spells : LiveType → Source.TypeExpr → Bool
  | .scalar s, type => type.bare.isPath fun names _ => scope.Knows v names (.scalar s.scalar)
  | .json, type => type.bare.isPath fun names _ => scope.Knows v names .json
  | .jsonMap, type => type.bare.isPath fun names _ => scope.Knows v names .jsonMap
  | .list _ element, type =>
      type.bare.isSequence (spells element) ||
        type.bare.isPath fun names types => scope.Knows v names .list && types.head?.any (spells element)
  | .map _ key value, type =>
      key.isText && type.bare.isPath fun names types =>
        scope.Knows v names .map && types.head?.any (spells key) && types.tail.head?.any (spells value)
  | .pointer _ target, type =>
      type.bare.isPath fun names types => scope.Knows v names .pointer && types.head?.any (spells target)
  | .option target, type =>
      type.bare.isPath fun names types => scope.Knows v names .optional && types.head?.any (spells target)
  | .declared name, type =>
      type.bare.isPath fun names types => types.isEmpty &&
        if names = ["Self"] then own = some name
        else !scope.Eclipses names && ((scope.lookup names).under v).any (pairs · name)

variable {v scope pairs own} {type : Source.TypeExpr} {live : LiveType}

/-- A path that means a well-known type and has an argument with a property. -/
theorem exists_of_knows {known : WellKnown} {p : Source.TypeExpr → Bool}
    (h : type.isPath (fun names types => scope.Knows v names known && types.head?.any p) = true) :
    ∃ leading before last argument more, type = .path false ⟨leading, before ++ [last]⟩ ∧
      scope.Knows v (namesOf before last) known ∧ last.types = argument :: more ∧ p argument = true := by
  obtain ⟨leading, before, last, htype, h⟩ := Source.TypeExpr.exists_of_isPath h
  rw [Bool.and_eq_true, Option.any_eq_true] at h
  obtain ⟨hknows, argument, hargument, hp⟩ := h
  obtain ⟨more, htypes⟩ := List.head?_eq_some_iff.1 hargument
  exact ⟨leading, before, last, argument, more, htype, of_decide_eq_true hknows, htypes, hp⟩

/-- A path that passes the test for a declared type spells it. -/
theorem Spells.of_declared {name : String}
    (h : scope.spells v pairs own (.declared name) type = true) :
    scope.Spells v pairs own type.bare (.declared name) := by
  obtain ⟨leading, before, last, htype, h⟩ := Source.TypeExpr.exists_of_isPath h
  rw [Bool.and_eq_true, List.isEmpty_iff] at h
  obtain ⟨htypes, h⟩ := h
  rw [htype]
  split at h
  -- Inside its own declaration a type may be written `Self`.
  next hself =>
    obtain ⟨rfl, hlast⟩ : before = [] ∧ last.name = "Self" := by
      simpa [namesOf, List.append_eq_singleton_iff] using hself
    obtain ⟨_, style, _⟩ := last
    obtain rfl := hlast
    obtain rfl := htypes
    exact .self (of_decide_eq_true h)
  next hself =>
    rw [Bool.and_eq_true, Option.any_eq_true] at h
    obtain ⟨hfree, d, hlookup, h⟩ := h
    exact .declared htypes hself (by simpa using hfree) hlookup (of_decide_eq_true h)

/-- What is recognized is spelled. -/
theorem Spells.of_spells (h : scope.spells v pairs own live type = true) :
    scope.Spells v pairs own type live := by
  refine Spells.of_bare v scope pairs ?_
  -- On the live type, since each of its forms fixes how it can be spelled.
  induction live generalizing type with
  | scalar s =>
      obtain ⟨leading, before, last, htype, hknows⟩ := Source.TypeExpr.exists_of_isPath h
      rw [htype]
      exact .scalar (of_decide_eq_true hknows)
  | json =>
      obtain ⟨leading, before, last, htype, hknows⟩ := Source.TypeExpr.exists_of_isPath h
      rw [htype]
      exact .json (of_decide_eq_true hknows)
  | jsonMap =>
      obtain ⟨leading, before, last, htype, hknows⟩ := Source.TypeExpr.exists_of_isPath h
      rw [htype]
      exact .jsonMap (of_decide_eq_true hknows)
  | list container element ih =>
      rw [spells, Bool.or_eq_true] at h
      rcases h with h | h
      · -- A list may also be a slice or an array, with no name in front.
        unfold Source.TypeExpr.isSequence at h
        split at h
        next e htype => exact htype ▸ .slice container (.of_bare v scope pairs (ih h))
        next e htype => exact htype ▸ .array container (.of_bare v scope pairs (ih h))
        next => cases h
      · obtain ⟨leading, before, last, e, more, htype, hknows, htypes, h⟩ := exists_of_knows h
        rw [htype]
        exact .list container hknows htypes (.of_bare v scope pairs (ih h))
  | map container key value ihkey ih =>
      rw [spells, Bool.and_eq_true] at h
      obtain ⟨hkeyText, h⟩ := h
      obtain ⟨s, rfl, htext⟩ := LiveType.exists_of_isText hkeyText
      obtain ⟨leading, before, last, htype, h⟩ := Source.TypeExpr.exists_of_isPath h
      rw [Bool.and_eq_true, Bool.and_eq_true, Option.any_eq_true, Option.any_eq_true] at h
      obtain ⟨⟨hknows, k, hk, hkey⟩, e, he, hvalue⟩ := h
      obtain ⟨rest, htypes⟩ := List.head?_eq_some_iff.1 hk
      rw [htypes] at he
      obtain ⟨more, rfl⟩ := List.head?_eq_some_iff.1 he
      rw [htype]
      have hkey := Spells.of_bare v scope pairs (ihkey hkey)
      have hvalue := Spells.of_bare v scope pairs (ih hvalue)
      exact .map container (of_decide_eq_true hknows) htypes htext hkey hvalue
  | pointer p target ih =>
      obtain ⟨leading, before, last, e, more, htype, hknows, htypes, h⟩ := exists_of_knows h
      rw [htype]
      exact .pointer p hknows htypes (.of_bare v scope pairs (ih h))
  | option target ih =>
      obtain ⟨leading, before, last, e, more, htype, hknows, htypes, h⟩ := exists_of_knows h
      rw [htype]
      exact .option hknows htypes (.of_bare v scope pairs (ih h))
  | declared name => exact .of_declared h

/-- What is spelled is recognized. -/
theorem Spells.spells (h : scope.Spells v pairs own type live) :
    scope.spells v pairs own live type = true := by
  induction h with
  | scalar h => simpa [FileScope.spells] using h
  | json h => simpa [FileScope.spells] using h
  | jsonMap h => simpa [FileScope.spells] using h
  | list container h htypes _ ih =>
      rw [FileScope.spells]
      simp [h, htypes, ih]
  | slice container _ ih =>
      rw [FileScope.spells]
      simp [Source.TypeExpr.isSequence, ih]
  | array container _ ih =>
      rw [FileScope.spells]
      simp [Source.TypeExpr.isSequence, ih]
  | map container h htypes htext _ _ ihkey ih =>
      rw [FileScope.spells]
      simp [LiveType.isText, h, htypes, htext, ihkey, ih]
  | pointer p h htypes _ ih =>
      rw [FileScope.spells]
      simp [h, htypes, ih]
  | option h htypes _ ih =>
      rw [FileScope.spells]
      simp [h, htypes, ih]
  | @parenthesized inner live _ ih => cases live <;> exact ih
  | declared htypes hself hfree hlookup h =>
      rw [FileScope.spells]
      simp [htypes, hself, hfree, hlookup, h]
  | self h =>
      rw [FileScope.spells]
      simp [Source.TypeExpr.isPath, h]

/-- The check decides whether a written type spells a live one. -/
theorem spells_iff : scope.spells v pairs own live type = true ↔ scope.Spells v pairs own type live :=
  ⟨.of_spells, Spells.spells⟩

instance : Decidable (scope.Spells v pairs own type live) := decidable_of_iff _ spells_iff

end FileScope

/-! ## Declarations -/

section

variable (files : Files) (root : FilePath) (declarations : String → LiveDeclaration)
  (pairs : Declaration → String → Prop) [∀ d name, Decidable (pairs d name)]

instance (v : View) (scope : FileScope) (own : String) (f : Source.FieldDecl) (live : LiveField) :
    Decidable (f.IsTwin v pairs scope own live) :=
  decidable_of_iff (live.name = plainName f.name ∧ live.tags.filterMap Source.Meta.ofText? = f.attributes ∧
      scope.Spells v pairs (some own) f.type live.type)
    ⟨fun ⟨name, tags, type⟩ => ⟨name, tags, type⟩, fun ⟨name, tags, type⟩ => ⟨name, tags, type⟩⟩

/-- Whether a declaration and the live type of a name describe the same fields with the same attributes. -/
def Declaration.isTwin (d : Declaration) (name : String) : Bool :=
  match Source.ofFile files d.file, declarations name with
  | .ok source, .record tags liveFields =>
    match source.find? d.name with
    | some (.struct struct) =>
      match struct.fields with
      | .named fields =>
        d.modulePath = ModulePath.ofFile root d.file &&
          (FileScope.ofSource root d.file source).declares d.name && struct.parameters.isEmpty &&
          tags.filterMap Source.Meta.ofText? = struct.attributes &&
          decide (List.Forall₂ (Source.FieldDecl.IsTwin (files.view root) pairs
            (FileScope.ofSource root d.file source) name) fields liveFields)
      | _ => false
    | _ => false
  | _, _ => false

variable {files root declarations pairs} {d : Declaration} {name : String}

/-- The check decides whether a declaration is the twin of a declared type. -/
theorem Declaration.isTwin_iff :
    d.isTwin files root declarations pairs name = true ↔ d.IsTwin files root declarations pairs name := by
  constructor
  · intro h
    unfold isTwin at h
    -- The checks are made in the order in which the relation lists its premises.
    split at h
    next source tags liveFields hsource hlive =>
      split at h
      next struct hitem =>
        split at h
        next fields hfields =>
          simp only [Bool.and_eq_true, decide_eq_true_eq, List.isEmpty_iff] at h
          obtain ⟨⟨⟨⟨hmodule, hdeclares⟩, hparameters⟩, htags⟩, h⟩ := h
          exact .intro hsource hmodule hdeclares hitem hparameters hfields hlive htags h
        next => cases h
      next => cases h
    next => cases h
  · intro h
    cases h with
    | intro hsource hmodule hdeclares hitem hparameters hfields hlive htags h =>
      simp only [isTwin, hsource, hlive, hitem, hfields, Bool.and_eq_true, decide_eq_true_eq,
        List.isEmpty_iff]
      exact ⟨⟨⟨⟨hmodule, hdeclares⟩, hparameters⟩, htags⟩, h⟩

instance : Decidable (d.IsTwin files root declarations pairs name) :=
  decidable_of_iff _ Declaration.isTwin_iff

end

namespace Twins

variable {files : Files} {root : FilePath} {declarations : String → LiveDeclaration}

/-- Declarations under full names that describe themselves are twins. -/
def ofPairs (pairs : List (Declaration × String))
    (twin : ∀ p ∈ pairs, p.1.IsTwin files root declarations (fun d name => (d, name) ∈ pairs) p.2)
    (name : ∀ p ∈ pairs, IsDeclaredName p.2) : Twins files root declarations where
  pairs d name := (d, name) ∈ pairs
  twin d name h := twin (d, name) h
  name d name' h := name (d, name') h

variable {pairs : List (Declaration × String)}
  {twin : ∀ p ∈ pairs, p.1.IsTwin files root declarations (fun d name => (d, name) ∈ pairs) p.2}
  {name : ∀ p ∈ pairs, IsDeclaredName p.2}

instance (d : Declaration) (name' : String) : Decidable ((ofPairs pairs twin name).pairs d name') :=
  inferInstanceAs (Decidable ((d, name') ∈ pairs))

/-- Pairs are unambiguous if the written declarations in them are. -/
theorem unambiguous_ofPairs
    (plain : ∀ p ∈ pairs, IsPlain p.1.modulePath ∧ IsPlain p.1.name ∧ ':' ∉ p.1.name.toList)
    (json : ∀ p ∈ pairs, ¬ (p.1.modulePath = "serde_json" ∧ p.1.name = "Value"))
    (place : ∀ p ∈ pairs, ∀ q ∈ pairs, p.1.modulePath = q.1.modulePath → p.1.name = q.1.name →
      p.1.file.parts = q.1.file.parts) :
    Unambiguous (ofPairs pairs twin name).declared where
  plain d := fun ⟨name, h⟩ => plain (d, name) h
  json d := fun ⟨name, h⟩ => json (d, name) h
  place d := fun ⟨name, h⟩ d' ⟨name', h'⟩ => place (d, name) h (d', name') h'

theorem toOption_eq_some {ε α : Type} {answer : Except ε α} {a : α} :
    answer.toOption = some a ↔ answer = .ok a := by
  cases answer with
  | error e => simp [Except.toOption]
  | ok b => simp [Except.toOption]

instance (T : Twins files root declarations) (file : FilePath) (text : String) (live : LiveType) [∀ d name, Decidable (T.pairs d name)] :
    Decidable (T.Spelled file text live) :=
  decidable_of_iff
    (((Source.TypeExpr.ofText? text).any fun type => ((files.view root).scope file).toOption.any fun scope =>
      decide (scope.Spells (files.view root) T.pairs none type live)) = true) <| by
    simp only [Option.any_eq_true, decide_eq_true_eq]
    constructor
    · rintro ⟨type, htype, scope, hscope, h⟩
      exact ⟨type, scope, htype, toOption_eq_some.1 hscope, h⟩
    · rintro ⟨type, scope, htype, hscope, h⟩
      exact ⟨type, htype, scope, toOption_eq_some.2 hscope, h⟩

end Twins

end PayloadSchema
