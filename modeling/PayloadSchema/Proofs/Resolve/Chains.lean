import Mathlib.Computability.StateTransition
import PayloadSchema.Proofs.Resolve.Memory

/-!
# Chains of imports

A file that imports a name gives another path for it: the target of an import by name, or the name in a
module of which all names are imported. So from a path a chain of imports may lead to a path whose module
declares the name (`View.Chain`). Imports may rename, form circles, import from themselves, or lead nowhere.

A search goes along the chains depth first. Each path that it has still to look at carries the number of
imports that led to it, and that number alone bounds a chain (`Search.step`): what was looked at in vain
costs the other chains nothing.

* `Search.mem_eval` — the search comes to an end, with the declaration of `Declaration.atPath`;
* `Declaration.leadsTo_of_within`, `Declaration.isSome_within_of_leadsTo` — it finds the end of a chain, and
  no chain with so many imports is missed;
* `Resolver.answer_atPath` — the same for every resolver, whatever it was asked for before.
-/

namespace PayloadSchema

/-! ## Imports and declarations -/

/-- The paths that a file's imports give for a name: the target of an import by name, if it is another path,
and the name in each module of which all names are imported. -/
theorem FileScope.mem_importedPaths {scope : FileScope} {path name next : String} :
    next ∈ scope.importedPaths path name ↔
      (scope.imports.find? name = some next ∧ next ≠ path) ∨
        ∃ glob ∈ scope.imports.globs, next = glob ++ "::" ++ name := by
  have hglobs : next ∈ scope.imports.globs.map (fun glob => glob ++ "::" ++ name) ↔
      ∃ glob ∈ scope.imports.globs, next = glob ++ "::" ++ name := by
    simp only [List.mem_map, eq_comm]
  unfold importedPaths
  rw [List.mem_append, hglobs]
  cases scope.imports.find? name with
  | none => simp
  | some target =>
      dsimp only
      by_cases hsame : target = path
      · -- an import of the path that it is found under leads nowhere
        have hno : ¬ (some target = some next ∧ next ≠ path) := by
          rintro ⟨htarget, hne⟩
          exact hne ((Option.some.inj htarget).symm.trans hsame)
        rw [if_pos hsame]
        simp only [List.not_mem_nil, hno]
      · have hyes : next = target ↔ some target = some next ∧ next ≠ path := by
          constructor
          · rintro rfl
            exact ⟨rfl, hsame⟩
          · rintro ⟨htarget, -⟩
            exact (Option.some.inj htarget).symm
        rw [if_neg hsame, List.mem_singleton, hyes]

namespace View

variable (v : View)

/-- A path is a name in a module that is not of the standard libraries, and a file located for the module
can be read, with a scope. -/
def Opens (path name : String) (scope : FileScope) : Prop :=
  ∃ modulePath, Segments.cutLast? path = some (modulePath, name) ∧
    ModulePath.isExternal modulePath = false ∧
    ∃ file ∈ v.locate modulePath, v.scope file = .ok scope

/-- An import gives another path for a path: in a file of its module, the name is imported from there, or
all names of a module are. -/
def Imports (path next : String) : Prop :=
  ∃ name scope, v.Opens path name scope ∧
    ((scope.imports.find? name = some next ∧ next ≠ path) ∨
      ∃ glob ∈ scope.imports.globs, next = glob ++ "::" ++ name)

/-- A file of the module of a path declares its name. -/
def Declares (path : String) (d : Declaration) : Prop :=
  ∃ name scope, v.Opens path name scope ∧ scope.declares name = true ∧ d = scope.declaration name

/-- A chain of so many imports from one path to another. -/
inductive Chain : Nat → String → String → Prop where
  | refl (path : String) : Chain 0 path path
  | head {hops : Nat} {path next last : String} (himport : v.Imports path next)
      (hrest : Chain hops next last) : Chain (hops + 1) path last

/-- A declaration lies at the end of a chain of so many imports at most. -/
def LeadsTo (hops : Nat) (path : String) (d : Declaration) : Prop :=
  ∃ k ≤ hops, ∃ last, v.Chain k path last ∧ v.Declares last d

variable {v}

/-- A path at which there is a declaration leads to it over no hop. -/
theorem Declares.leadsTo {path : String} {d : Declaration} (h : v.Declares path d) (hops : Nat) :
    v.LeadsTo hops path d :=
  ⟨0, Nat.zero_le hops, path, .refl path, h⟩

/-- A path that is imported from another leads where the other does, one hop later. -/
theorem Imports.leadsTo {hops : Nat} {path next : String} {d : Declaration} (himport : v.Imports path next)
    (h : v.LeadsTo hops next d) : v.LeadsTo (hops + 1) path d := by
  obtain ⟨k, hk, last, hchain, hdeclares⟩ := h
  exact ⟨k + 1, Nat.succ_le_succ hk, last, .head himport hchain, hdeclares⟩

/-! ## Looking at one path -/

variable (v)

/-- The name that a path ends with and the scopes of the files of its module; there are none for a path
without a module and for one into the standard libraries. -/
def scopes? (path : String) : Option (String × List FileScope) :=
  match Segments.cutLast? path with
  | none => none
  | some (modulePath, name) =>
    if ModulePath.isExternal modulePath then none
    else some (name, (v.locate modulePath).filterMap fun file => (v.scope file).toOption)

/-- What a path leads to at once: a declaration in a file of its module, or the paths that the imports of
those files give for it. -/
def look (path : String) : Declaration ⊕ List String :=
  match v.scopes? path with
  | none => .inr []
  | some (name, scopes) =>
    match scopes.find? (·.declares name) with
    | some scope => .inl (scope.declaration name)
    | none => .inr (scopes.flatMap (·.importedPaths path name))

variable {v}

/-- The readable scopes of some files are those of the files that have one. -/
theorem mem_readable_iff {files : List FilePath} {scope : FileScope} :
    scope ∈ files.filterMap (fun file => (v.scope file).toOption) ↔
      ∃ file ∈ files, v.scope file = .ok scope := by
  have hread (file : FilePath) :
      (v.scope file).toOption = some scope ↔ v.scope file = .ok scope := by
    cases v.scope file with
    | error f => simp [Except.toOption]
    | ok scope' => simp [Except.toOption]
  simp only [List.mem_filterMap, hread]

/-- A path opens the scopes of the files of its module. -/
theorem opens_iff {path name : String} {scope : FileScope} :
    v.Opens path name scope ↔ ∃ scopes, v.scopes? path = some (name, scopes) ∧ scope ∈ scopes := by
  constructor
  · rintro ⟨modulePath, hcut, hinside, hfile⟩
    refine ⟨_, ?_, mem_readable_iff.2 hfile⟩
    unfold scopes?
    simp only [hcut, hinside, Bool.false_eq_true, if_false]
  · rintro ⟨scopes, hscopes, hmem⟩
    unfold scopes? at hscopes
    split at hscopes
    · cases hscopes
    · next modulePath name' hcut =>
      -- An external module has no files here, which `scopes?` answers with nothing.
      cases hexternal : ModulePath.isExternal modulePath with
      | true =>
          rw [if_pos hexternal] at hscopes
          cases hscopes
      | false =>
          rw [if_neg (Bool.eq_false_iff.1 hexternal)] at hscopes
          cases hscopes
          exact ⟨modulePath, hcut, hexternal, mem_readable_iff.1 hmem⟩

/-- A path leads to a declaration at once, or no file of its module declares the name and it leads to the
paths that imports give. -/
theorem look_cases (v : View) (path : String) :
    (∃ d, v.look path = .inl d ∧ v.Declares path d) ∨
    (∃ paths, v.look path = .inr paths ∧ (∀ d, ¬ v.Declares path d) ∧
      ∀ next, next ∈ paths ↔ v.Imports path next) := by
  unfold look Declares Imports
  simp only [opens_iff]
  cases v.scopes? path with
  | none => simp
  | some entry =>
      obtain ⟨name, scopes⟩ := entry
      dsimp only
      -- The first scope that declares the name answers; without one, every scope hands its imports on.
      cases hfound : scopes.find? (·.declares name) with
      | some scope =>
          left
          have hmem := List.mem_of_find?_eq_some hfound
          have hdeclares := List.find?_some hfound
          exact ⟨_, rfl, name, scope, ⟨scopes, rfl, hmem⟩, hdeclares, rfl⟩
      | none =>
          right
          refine ⟨_, rfl, ?_, ?_⟩
          · rintro d ⟨name', scope, ⟨scopes', hscopes, hmem⟩, hdeclares, -⟩
            cases hscopes
            exact List.find?_eq_none.1 hfound scope hmem hdeclares
          · intro next
            rw [List.mem_flatMap]
            constructor
            · rintro ⟨scope, hmem, hnext⟩
              exact ⟨name, scope, ⟨scopes, rfl, hmem⟩, FileScope.mem_importedPaths.1 hnext⟩
            · rintro ⟨name', scope, ⟨scopes', hscopes, hmem⟩, hnext⟩
              cases hscopes
              exact ⟨scope, hmem, FileScope.mem_importedPaths.2 hnext⟩

end View

/-! ## Chains with so many links -/

namespace Declaration

variable (v : View)

/-- With a link to spend, a path is looked at, and the paths that it leads to have one link fewer. -/
theorem within_under (links : Nat) (path : String) :
    (within (links + 1) path).under v =
      match v.look path with
      | .inl d => some d
      | .inr paths => paths.findSome? fun next => (within links next).under v := by
  rw [within]
  unfold View.look View.scopes?
  -- One link of the search is one look at the module of the path.
  cases Segments.cutLast? path with
  | none => rfl
  | some cut =>
      obtain ⟨modulePath, name⟩ := cut
      dsimp only
      cases ModulePath.isExternal modulePath with
      | true => rfl
      | false =>
          rw [if_neg Bool.false_ne_true, if_neg Bool.false_ne_true, Asking.under_bind,
            Asking.under_scopesOf]
          dsimp only
          cases List.find? (·.declares name)
              ((v.locate modulePath).filterMap fun file => (v.scope file).toOption) with
          | some scope => rfl
          | none => exact Asking.under_first v _ _

variable {v}

/-- What is found lies at the end of a chain. -/
theorem leadsTo_of_within {hops : Nat} {path : String} {d : Declaration}
    (h : (within (hops + 1) path).under v = some d) : v.LeadsTo hops path d := by
  induction hops generalizing path with
  | zero =>
      rw [within_under] at h
      rcases v.look_cases path with ⟨e, hlook, hdeclares⟩ | ⟨paths, hlook, -, -⟩
      · rw [hlook] at h
        cases h
        exact hdeclares.leadsTo 0
      · -- no link is left for what the path leads to
        rw [hlook] at h
        obtain ⟨next, -, hnext⟩ := List.exists_of_findSome?_eq_some h
        cases hnext
  | succ hops ih =>
      rw [within_under] at h
      rcases v.look_cases path with ⟨e, hlook, hdeclares⟩ | ⟨paths, hlook, -, himports⟩
      · rw [hlook] at h
        cases h
        exact hdeclares.leadsTo _
      · rw [hlook] at h
        obtain ⟨next, hmem, hnext⟩ := List.exists_of_findSome?_eq_some h
        have himport : v.Imports path next := (himports next).1 hmem
        exact himport.leadsTo (ih hnext)

/-- Where a chain of so many imports leads to a declaration, one is found. It need not be the same one: a
declaration on the way, or one that another import leads to, may come first. -/
theorem isSome_within_of_leadsTo {hops : Nat} {path : String} {d : Declaration}
    (h : v.LeadsTo hops path d) : ((within (hops + 1) path).under v).isSome = true := by
  obtain ⟨k, hk, last, hchain, hdeclares⟩ := h
  induction hchain generalizing hops with
  | refl path =>
      rw [within_under]
      rcases v.look_cases path with ⟨e, hlook, -⟩ | ⟨paths, hlook, hnone, -⟩
      · rw [hlook]
        rfl
      · exact absurd hdeclares (hnone d)
  | @head k path next last himport hrest ih =>
      -- One import shorter, one hop fewer. The search may also stop at a declaration nearer by.
      obtain ⟨hops, rfl⟩ : ∃ n, hops = n + 1 := ⟨hops - 1, by omega⟩
      have hnext : ((within (hops + 1) next).under v).isSome = true := ih (by omega) hdeclares
      rw [within_under]
      rcases v.look_cases path with ⟨e, hlook, -⟩ | ⟨paths, hlook, -, himports⟩
      · rw [hlook]
        rfl
      · rw [hlook, List.findSome?_isSome_iff]
        exact ⟨next, (himports next).2 himport, hnext⟩

/-- Where a file of the module of a path declares the name, such a declaration is found. -/
theorem declares_of_within {hops : Nat} {path : String} {d e : Declaration} (he : v.Declares path e)
    (h : (within (hops + 1) path).under v = some d) : v.Declares path d := by
  rw [within_under] at h
  rcases v.look_cases path with ⟨e', hlook, hdeclares⟩ | ⟨paths, -, hnone, -⟩
  · rw [hlook] at h
    cases h
    exact hdeclares
  · exact absurd he (hnone e)

end Declaration

/-! ## The search comes to an end -/

/-- A search: the paths that are still to be looked at, each with the number of imports that led to it, or
what was found. -/
inductive Search where
  | pending (paths : List (Nat × String))
  | ended (found : Option Declaration)

namespace Search

open StateTransition (Reaches eval)

variable (v : View)

/-- The next step of a search. The first path is passed over if too many imports led to it; else it ends the
search, or the paths that it leads to come before all others. -/
def step : Search → Option Search
  | pending [] => some (ended none)
  | pending ((hops, path) :: rest) =>
    if importHops < hops then some (pending rest)
    else
      match v.look path with
      | .inl d => some (ended (some d))
      | .inr paths => some (pending (paths.map (hops + 1, ·) ++ rest))
  | ended _ => none

/-- A search after some paths were looked at: it has ended, or goes on with the other paths. -/
def goOn (rest : List (Nat × String)) : Option Declaration → Search
  | some d => ended (some d)
  | none => pending rest

variable {v}

/-- If each of some paths is looked at before the others, then so are all of them. -/
theorem reaches_all {hops : Nat} (find : String → Option Declaration) (paths : List String)
    (h : ∀ path rest, Reaches (step v) (pending ((hops, path) :: rest)) (goOn rest (find path)))
    (rest : List (Nat × String)) :
    Reaches (step v) (pending (paths.map (hops, ·) ++ rest)) (goOn rest (paths.findSome? find)) := by
  induction paths with
  | nil => exact .refl
  | cons path paths ih =>
      have hfirst := h path (paths.map (hops, ·) ++ rest)
      rw [List.map_cons, List.cons_append, List.findSome?_cons]
      -- A path that leads nowhere leaves the stack as it was below it.
      cases hfind : find path with
      | some d =>
          rw [hfind] at hfirst
          exact hfirst
      | none =>
          rw [hfind] at hfirst
          exact hfirst.trans ih

/-- Looking at a path and all that it leads to comes to an end, before any other path is looked at. The
induction is on the links that the imports so far have left. -/
theorem reaches_within {links hops : Nat} (h : hops + links = importHops + 1) (path : String)
    (rest : List (Nat × String)) :
    Reaches (step v) (pending ((hops, path) :: rest))
      (goOn rest ((Declaration.within links path).under v)) := by
  induction links generalizing hops path rest with
  | zero =>
      -- No links are left exactly when the hops are used up, and the machine drops the path there.
      have hfar : importHops < hops := by omega
      have hstep : step v (pending ((hops, path) :: rest)) = some (pending rest) := by
        rw [step, if_pos hfar]
      exact .single hstep
  | succ links ih =>
      -- Every import pushed stands one hop further, with one link fewer to go.
      have hnear : ¬ importHops < hops := by omega
      have hstep : step v (pending ((hops, path) :: rest)) = match v.look path with
          | .inl d => some (ended (some d))
          | .inr paths => some (pending (paths.map (hops + 1, ·) ++ rest)) := by
        rw [step, if_neg hnear]
      rw [Declaration.within_under]
      cases hlook : v.look path with
      | inl d =>
          rw [hlook] at hstep
          exact .single hstep
      | inr paths =>
          rw [hlook] at hstep
          refine .head hstep (reaches_all _ paths (fun next rest => ?_) rest)
          exact ih (by omega) next rest

/-- A search for a path comes to an end, with the declaration behind the path. -/
theorem mem_eval (v : View) (path : String) :
    ended ((Declaration.atPath path).under v) ∈ eval (step v) (pending [(0, path)]) := by
  have hreaches : Reaches (step v) (pending [(0, path)])
      (goOn [] ((Declaration.atPath path).under v)) :=
    reaches_within (Nat.zero_add _) path []
  refine StateTransition.mem_eval.2 ⟨?_, rfl⟩
  cases hfound : (Declaration.atPath path).under v with
  | some d =>
      rw [hfound] at hreaches
      exact hreaches
  | none =>
      -- nothing is left to look at
      rw [hfound] at hreaches
      exact hreaches.tail rfl

end Search

/-! ## Every resolver -/

namespace Resolver

/-- **Chains of imports.** For a workspace and a path, whatever the resolver was asked for before: the search
along the imports comes to an end; the resolver finds a declaration if and only if one lies at the end of a
chain of at most `importHops` imports; the one it finds lies at the end of such a chain, and if a file of the
path's own module declares the name, it is that of such a file. Declarations of one file are the same
however its path is spelled. -/
theorem answer_atPath (files : Files) (root : FilePath) (past : List Request) (path : String) :
    let v := files.view root
    let found := (answer files (Declaration.atPath path) ((ofRoot root).after files past)).1
    (∃ outcome, Search.ended outcome ∈
        StateTransition.eval (Search.step v) (.pending [(0, path)]) ∧
      SameOption (Declaration.Alike files root) found outcome) ∧
    (found.isSome = true ↔ ∃ d, v.LeadsTo importHops path d) ∧
    (∀ d, found = some d → ∃ e, v.LeadsTo importHops path e ∧ d.Alike files root e) ∧
    (∀ e, v.Declares path e → ∃ d e', found = some d ∧ v.Declares path e' ∧ d.Alike files root e') := by
  intro v found
  -- a resolver finds what the files say, up to the spelling of paths
  have hyields := ((honest_ofRoot files root).after past).answer (Declaration.atPath path)
  have hsame : SameOption (Declaration.Alike files root) found ((Declaration.atPath path).under v) :=
    Declaration.atPath_alike path _ _ hyields.1 (Asking.yields_under files root _)
  have hsearch := Search.mem_eval v path
  have hsound (e : Declaration) (he : (Declaration.atPath path).under v = some e) :
      v.LeadsTo importHops path e := Declaration.leadsTo_of_within he
  have hcomplete (e : Declaration) (he : v.LeadsTo importHops path e) :
      ((Declaration.atPath path).under v).isSome = true := Declaration.isSome_within_of_leadsTo he
  have hown (e e' : Declaration) (he : v.Declares path e)
      (he' : (Declaration.atPath path).under v = some e') : v.Declares path e' :=
    Declaration.declares_of_within he he'
  refine ⟨⟨_, hsearch, hsame⟩, ?_⟩
  generalize (Declaration.atPath path).under v = outcome at hsame hsound hcomplete hown
  clear_value found
  cases hsame with
  | none =>
      refine ⟨?_, ?_, ?_⟩
      · constructor
        · intro hsome
          cases hsome
        · rintro ⟨d, hd⟩
          exact hcomplete d hd
      · intro d hd
        cases hd
      · intro e he
        have hsome := hcomplete e (he.leadsTo importHops)
        cases hsome
  | @some d e halike =>
      refine ⟨?_, ?_, ?_⟩
      · constructor
        · intro _
          exact ⟨e, hsound e rfl⟩
        · intro _
          rfl
      · intro d' hd'
        cases hd'
        exact ⟨e, hsound e rfl, halike⟩
      · intro e' he'
        exact ⟨d, e, rfl, hown e' e he' rfl, halike⟩

/-- A name is imported under another one, from a module that imports all names of the first module and of a
third one, where it is declared. The circle is followed in vain, and then the declaration is found. -/
example :
    (Declaration.atPath "crate::a::T").under ((Files.ofSources
        [("a.rs", "use crate::b::U as T;"), ("b.rs", "use crate::a::*; use crate::c::*;"),
          ("c.rs", "struct U;")]).view ⟨""⟩) =
      some { file := ⟨"src/c.rs"⟩, modulePath := "crate::c", name := "U" } := by
  decide +kernel

end Resolver

end PayloadSchema
