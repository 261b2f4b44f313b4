import PayloadSchema.Proofs.Engine.Requests

/-!
# Engines that forget

An engine keeps schemas, scopes of files and the files of modules, which may all be out of date once files
change. After it was told to clear, it differs from a new engine in one thing only: it may know already
whether there are sources, and does not look again. As long as that is still so, nothing that is asked of it
tells the two apart. The induction is over the later requests, and carries that both engines know the same
of sources (`Engine.SameSources`).

* `Engine.answers` — the answers to requests one after another, over a cache of the engine's own;
* `Engine.answers_clear` — after clearing they are those of a new engine.
-/

namespace PayloadSchema

/-! ## Directories of stored schemas -/

/-- A directory is what can be listed. -/
theorem Files.isDirectory_eq (files : Files) (path : FilePath) :
    files.isDirectory path = (files.list path).toOption.isSome := by
  unfold Files.isDirectory Files.list
  cases files.find path with
  | error e => rfl
  | ok t => cases t <;> rfl

namespace Engine

variable {settings : Settings} {files files' : Files} {e e' : Engine}

/-- Of the files only the directory of stored schemas matters to the start of an engine. -/
theorem start_congr (h : ∀ directory, settings.schemaDirectory = some directory →
    files'.list directory = files.list directory) : start settings files' = start settings files := by
  have hproblem : settings.problem? files' = settings.problem? files := by
    unfold Settings.problem?
    cases hdirectory : settings.schemaDirectory with
    | none => rfl
    | some directory => simp only [Files.isDirectory_eq, h directory hdirectory]
  unfold start
  rw [hproblem]
  cases hdirectory : settings.schemaDirectory with
  | none => rfl
  | some directory => simp only [SchemaStore.ofDirectory, h directory hdirectory]

/-! ## Requests over a cache of one's own -/

/-- The answers to requests one after another. Nobody else writes into the cache. -/
def answers (around : Surroundings) : Engine → SchemaCache → List Request → List Answer
  | _, _, [] => []
  | e, cache, request :: requests =>
    let (answer, e, cache) := e.handle around cache request
    answer :: answers around e cache requests

/-- Engines that know the same of sources, and for which the same is stored, answer alike. -/
theorem SameSources.answers_eq {around : Surroundings} (h : SameSources around.files e e')
    (hstore : e.store = e'.store) (cache : SchemaCache) (requests : List Request) :
    answers around e cache requests = answers around e' cache requests := by
  induction requests generalizing e e' cache with
  | nil => rfl
  | cons request requests ih =>
      -- One request is answered alike and leaves engines that are alike again.
      have hreply := h.handle hstore cache request
      have hstores := (step_handle e around cache request).store.trans
        (hstore.trans (step_handle e' around cache request).store.symm)
      unfold answers
      generalize e.handle around cache request = reply, e'.handle around cache request = reply'
        at hreply hstores
      obtain ⟨answer, e, cache⟩ := reply
      obtain ⟨answer', e', cache'⟩ := reply'
      obtain ⟨hanswer, hcache, hengine⟩ := hreply
      dsimp only at hanswer hcache hengine hstores ⊢
      rw [hanswer, hcache, ih hengine hstores]

/-- **Clearing leaves nothing stale.** Whatever an engine was asked for, and however the files and the
cache changed in between, after clearing it answers all further requests as a new engine does: with the same
schemas from the same stages, and with the same failures. Only the directory of stored schemas has to be as
it was, and if the engine looked for sources, there are still some or still none. -/
theorem answers_clear (hstart : start settings files = .ok e) (past : List Call) (around : Surroundings)
    (cache : SchemaCache)
    (hstored : ∀ directory, settings.schemaDirectory = some directory →
      around.files.list directory = files.list directory)
    (hfound : ∀ found, (e.after past).sourcesFound = some found →
      around.files.hasSources settings.root = found) :
    let (_, cleared, emptied) := (e.after past).handle around cache .clear
    ∃ new, start settings around.files = .ok new ∧
      ∀ later, answers around cleared emptied later = answers around new [] later := by
  obtain ⟨hsettings, hstore, hroot⟩ := e.after_eq past
  obtain ⟨-, -, he⟩ := start_eq_ok_iff.1 hstart
  have hnew : e.settings = settings ∧ e.resolver = .ofRoot settings.root ∧ e.sourcesFound = none := by
    rw [he]
    exact ⟨rfl, rfl, rfl⟩
  have hsources : SameSources around.files (e.after past).clear e := by
    refine ⟨hsettings, ?_, ?_⟩
    · -- neither resolver knows more than the root
      have hcleared : (e.after past).clear.resolver = .ofRoot (e.after past).resolver.root :=
        Resolver.clear_eq_ofRoot _
      rw [hcleared, hroot, hnew.2.1]
      rfl
    · have hcleared : (e.after past).clear.sourcesFound = (e.after past).sourcesFound := rfl
      have hsame : (e.after past).clear.settings = settings := hsettings.trans hnew.1
      rw [hcleared, hsame, hnew.2.2, hnew.1]
      cases hbefore : (e.after past).sourcesFound with
      | none => rfl
      | some found => exact (hfound found hbefore).symm
  exact ⟨e, (start_congr hstored).trans hstart, hsources.answers_eq hstore []⟩

end Engine

/-! ## A library that is edited -/

namespace Edited

open Engine (Call Request)

/-- The stored response of a handler. -/
def entries : List (String × FileTree) :=
  [("list.json", .ofText
    "\x7b\"version\": 1, \"handlerName\": \"list\", \"responseSchema\": \x7b\"type\": \"array\"\x7d\x7d")]

/-- A library with a text, beside a directory of stored schemas. -/
def files (text : String) : Files where
  root := .directory [("schemas", .directory entries), ("src", .directory [("lib.rs", .ofText text)])]
  start := []

/-- Schemas are stored. -/
def storing : Settings := { schemaDirectory := some ⟨"schemas"⟩ }

def engine : Engine where
  settings := storing
  store := .ofEntries ⟨"schemas"⟩ entries
  resolver := .ofRoot ⟨"."⟩

def user : Request := .resolveSource ⟨"src/lib.rs"⟩ "User"

/-- A handler whose request is a user. -/
def make : Request :=
  .resolve { name := "make", source := some { file := ⟨"src/lib.rs"⟩, request := some "User" } } .request

/-- The library is asked for a user, and again when it has become unreadable. -/
def past : List Call :=
  [⟨{ files := files "struct User { id: u64 }" }, [], make⟩, ⟨{ files := files "struct User \x7b" }, [], user⟩]

/-- The library as it is in the end. -/
def around : Surroundings := { files := files "struct User { name: String }" }

/-- What is kept of the first user. -/
def stale : SchemaCache := [("crate::User", .array .dynamic)]

/-- Whatever is in the file, the directory has the same entries. -/
theorem list_schemas (text : String) : (files text).list ⟨"schemas"⟩ = .ok entries := by
  have hparts : (FilePath.mk "schemas").parts = [.name "schemas"] := by decide +kernel
  have hplain : (FilePath.mk "schemas").saysDirectory = false := by decide +kernel
  unfold Files.list Files.find Files.place
  rw [hparts, hplain, if_neg (by decide)]
  rfl

end Edited

namespace Engine

open Edited

/-- The kept schema of a user is not the one that a new engine gives. Once the engine is cleared, it answers as
the new one. -/
theorem answers_clear_edited :
    start storing (files "struct User { id: u64 }") = .ok engine ∧
      (engine.store.response? "list").isSome = true ∧
      ((engine.after past).sourcesFound = some true ∧ around.files.hasSources storing.root = true) ∧
      (((engine.after past).resolveSource around.files ⟨"src/lib.rs"⟩ "User" stale).1.toOption.map (·.kind) =
          some (some .array) ∧
        (engine.resolveSource around.files ⟨"src/lib.rs"⟩ "User" []).1.toOption.map (·.kind) =
          some (some .object)) ∧
      let (_, cleared, emptied) := (engine.after past).handle around stale .clear
      ∃ new, start storing around.files = .ok new ∧
        ∀ later, answers around cleared emptied later = answers around new [] later := by
  have hstored : SchemaStore.ofDirectory (files "struct User { id: u64 }") ⟨"schemas"⟩ =
      .ok engine.store := by
    unfold SchemaStore.ofDirectory
    rw [list_schemas]
    rfl
  have hstart : start storing (files "struct User { id: u64 }") = .ok engine :=
    start_eq_ok_iff.2 ⟨by decide +kernel, hstored, rfl⟩
  have hfound : (engine.after past).sourcesFound = some true := by decide +kernel
  have hsources : around.files.hasSources storing.root = true := by decide +kernel
  refine ⟨hstart, by decide +kernel, ⟨hfound, hsources⟩, by decide +kernel, ?_⟩
  -- The library was edited, but the schemas and the presence of sources are as before.
  refine answers_clear hstart past around stale ?_ ?_
  · rintro _ ⟨⟩
    exact (list_schemas _).trans (list_schemas _).symm
  · intro found hknown
    rw [hfound] at hknown
    rw [hsources]
    exact Option.some.inj hknown

end Engine

end PayloadSchema
