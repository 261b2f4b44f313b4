import PayloadSchema.Resolve.Scope

/-!
# Asking about a workspace

To resolve a type is to ask which files a module has, what a file says at its surface, and what it reads
as. A search is written as the questions that it asks and how it goes on with the answers (`Asking`), so
that it can be answered from the files alone or by someone who remembers answers.

* `Asking.under` — the outcome of a search where every question has one answer (`View`).
-/

namespace PayloadSchema

/-- A search that asks about a workspace. -/
inductive Asking (α : Type) where
  | done (value : α)
  /-- Asks for the files of a module. -/
  | locate (modulePath : String) (next : List FilePath → Asking α)
  /-- Asks for the scope of a file. -/
  | scope (file : FilePath) (next : Except Failure FileScope → Asking α)
  /-- Asks what a file reads as. -/
  | read (file : FilePath) (next : Except Failure Source.SourceFile → Asking α)

namespace Asking

variable {α β : Type}

/-- One search after another, which depends on the outcome of the first. -/
def bind : Asking α → (α → Asking β) → Asking β
  | done a, f => f a
  | locate modulePath next, f => locate modulePath fun found => (next found).bind f
  | scope file next, f => scope file fun answer => (next answer).bind f
  | read file next, f => read file fun answer => (next answer).bind f

instance : Monad Asking where
  pure := done
  bind := bind

@[simp] theorem done_bind (a : α) (f : α → Asking β) : done a >>= f = f a := rfl

@[simp] theorem locate_bind (modulePath : String) (next : List FilePath → Asking α)
    (f : α → Asking β) : locate modulePath next >>= f = locate modulePath fun found => next found >>= f :=
  rfl

@[simp] theorem scope_bind (file : FilePath) (next : Except Failure FileScope → Asking α)
    (f : α → Asking β) : scope file next >>= f = scope file fun answer => next answer >>= f := rfl

@[simp] theorem read_bind (file : FilePath) (next : Except Failure Source.SourceFile → Asking α)
    (f : α → Asking β) : read file next >>= f = read file fun answer => next answer >>= f := rfl

/-! ## Searches -/

def filesOf (modulePath : String) : Asking (List FilePath) := locate modulePath done

def scopeOf (file : FilePath) : Asking (Except Failure FileScope) := scope file done

def sourceOf (file : FilePath) : Asking (Except Failure Source.SourceFile) := read file done

def all : List (Asking α) → Asking (List α)
  | [] => pure []
  | x :: xs => do
    let a ← x
    let as ← all xs
    return a :: as

/-- The first value that there is, and no question after it. -/
def first (f : α → Asking (Option β)) : List α → Asking (Option β)
  | [] => pure none
  | a :: as => do
    match ← f a with
    | some b => return some b
    | none => first f as

/-- The scopes of the files of a module that have one. -/
def scopesOf (modulePath : String) : Asking (List FileScope) := do
  let found ← filesOf modulePath
  let scopes ← all (found.map scopeOf)
  return scopes.filterMap (·.toOption)

end Asking

/-! ## Plain answers -/

/-- An answer to every question about a workspace. -/
structure View where
  /-- The files of a module. -/
  locate : String → List FilePath
  /-- The scope of a file. -/
  scope : FilePath → Except Failure FileScope
  /-- What a file reads as. -/
  source : FilePath → Except Failure Source.SourceFile

namespace Asking

variable {α β : Type} (v : View)

/-- The outcome of a search whose questions a view answers. -/
def under : Asking α → α
  | done a => a
  | locate modulePath next => (next (v.locate modulePath)).under
  | scope file next => (next (v.scope file)).under
  | read file next => (next (v.source file)).under

@[simp] theorem under_pure (a : α) : (pure a : Asking α).under v = a := rfl

/-- A search after another is answered by the same view. -/
@[simp] theorem under_bind (x : Asking α) (f : α → Asking β) :
    (x >>= f).under v = (f (x.under v)).under v := by
  induction x with
  | done a => rfl
  | locate modulePath next ih => exact ih _
  | scope file next ih => exact ih _
  | read file next ih => exact ih _

@[simp] theorem under_map (f : α → β) (x : Asking α) : (f <$> x).under v = f (x.under v) :=
  under_bind v x _

@[simp] theorem under_filesOf (modulePath : String) :
    (filesOf modulePath).under v = v.locate modulePath := rfl

@[simp] theorem under_scopeOf (file : FilePath) : (scopeOf file).under v = v.scope file := rfl

@[simp] theorem under_sourceOf (file : FilePath) : (sourceOf file).under v = v.source file := rfl

/-- Searches in order are each answered by the view. -/
@[simp] theorem under_all (xs : List (Asking α)) : (all xs).under v = xs.map (under v) := by
  induction xs with
  | nil => rfl
  | cons x xs ih => simp [all, ih]

/-- Of searches in order, the first that the view answers with a value counts. -/
@[simp] theorem under_first (f : α → Asking (Option β)) (as : List α) :
    (first f as).under v = as.findSome? fun a => (f a).under v := by
  induction as with
  | nil => rfl
  | cons a as ih =>
    rw [first, under_bind, List.findSome?_cons]
    cases (f a).under v with
    | none => exact ih
    | some b => rfl

/-- The scopes of the files of a module, as a view has them. -/
@[simp] theorem under_scopesOf (modulePath : String) :
    (scopesOf modulePath).under v =
      (v.locate modulePath).filterMap fun file => (v.scope file).toOption := by
  simp [scopesOf, List.filterMap_map, Function.comp_def]

end Asking

end PayloadSchema
