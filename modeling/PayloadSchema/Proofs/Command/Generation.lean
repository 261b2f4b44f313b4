import PayloadSchema.Command.Generation
import PayloadSchema.Proofs.Files.Writing
import PayloadSchema.Proofs.Resolve.Extraction
import PayloadSchema.Proofs.Stored.Loading
import PayloadSchema.Proofs.Stored.Rereading

/-!
# Generated files as a store

Generation writes a file for each handler in its turn, and a store reads all of them. The name of a file is
made of the name of a handler by putting underscores for some characters, so two handlers may have one file,
and then the later one overwrites the file of the earlier one. Apart from that no handler is lost whose file
can be read at all.

* `Workshop.list_of_writeAll` — the entries of the directory after all files were written;
* `Arguments.generate_store` — the store of what was generated, handler by handler;
* `Arguments.generate_loses` — a handler that is lost.
-/

namespace PayloadSchema

open Compile (AllCached)
open Schema (Everywhere PartsStorable)

/-! ## Names of files -/

namespace SchemaFile

/-- The name of a file is that of the handler, with a line in the place of each character that is not plain,
and the extension. -/
theorem toList_fileName (handlerName : String) (format : Format) : (fileName handlerName format).toList =
    (handlerName.toList.map fun c => if isPlainInName c then c else '_') ++ '.' :: format.extension.toList := by
  simp [fileName]

/-- The name of a file is the name of an entry of a directory. -/
theorem isName_fileName (handlerName : String) (format : Format) :
    FilePath.IsName (fileName handlerName format) := by
  have htext := toList_fileName handlerName format
  have hlength : 3 ≤ (fileName handlerName format).toList.length := by
    rw [htext, List.length_append, List.length_cons]
    cases format <;> simp [Format.extension]
  have hne (text : String) (h : text.toList.length < 3) : fileName handlerName format ≠ text := by
    intro heq
    rw [heq] at hlength
    omega
  -- The extension alone has four characters or more, so none of the short special names is meant.
  refine ⟨hne "" (by decide), ?_, hne "." (by decide), hne ".." (by decide)⟩
  rw [htext, List.mem_append, not_or]
  constructor
  · intro h
    obtain ⟨c, -, hc⟩ := List.mem_map.1 h
    -- A slash is never kept by the map over the characters, and the extension has none.
    split_ifs at hc with hplain
    · rw [hc] at hplain
      revert hplain
      decide
    · revert hc
      decide
  · cases format <;> decide

/-- The name of a file says its format. -/
theorem ofPath?_fileName {handlerName : String} (hname : handlerName ≠ "") (directory : FilePath) :
    Format.ofPath? (directory.below (fileName handlerName .json)) = some .json := by
  have hlast : (directory.below (fileName handlerName .json)).name? = some (fileName handlerName .json) := by
    rw [FilePath.name?, (isName_fileName handlerName .json).parts_below, List.getLast?_concat]
  have hstem : (handlerName.toList.map fun c => if isPlainInName c then c else '_') ≠ [] := by
    simpa using hname
  have hextension : (directory.below (fileName handlerName .json)).extension? = some "json" := by
    unfold FilePath.extension?
    rw [hlast, Option.bind_eq_bind, Option.bind_some, toList_fileName,
      FilePath.cutExtension_append hstem (by decide)]
    rfl
  rw [Format.ofPath?, hextension]
  rfl

/-- The entries of a directory after files were written into it, one after the other. -/
def written (files : List SchemaFile) : List (String × FileTree) :=
  files.map fun f => (fileName f.handlerName .json, .ofText (f.render .json))

/-- Files stand under the names of their handlers, and nothing else does. -/
theorem mem_keys_written {files : List SchemaFile} {key : String} :
    key ∈ Dictionary.keys (written files) ↔ ∃ f ∈ files, fileName f.handlerName .json = key := by
  simp [Dictionary.keys, written]

/-- A file that is saved becomes an entry of its directory. -/
theorem list_of_save {f : SchemaFile} {files files' : Files} {directory path : FilePath}
    {entries : List (String × FileTree)} (hlist : files.list directory = .ok entries)
    (hsave : f.save files directory .json = .ok (path, files')) :
    files'.list directory = .ok (Dictionary.insertAll entries (written [f])) := by
  -- Saving a schema file is saving its text under the name the handler gives it.
  obtain ⟨saved, hsaved, heq⟩ : ∃ saved, files.save (directory.below (fileName f.handlerName .json))
      (f.render .json) = .ok saved ∧ saved = files' := by
    unfold save at hsave
    dsimp only at hsave
    cases h : files.save (directory.below (fileName f.handlerName .json)) (f.render .json) with
    | error e =>
        rw [h] at hsave
        cases hsave
    | ok saved =>
        rw [h] at hsave
        cases hsave
        exact ⟨files', rfl, rfl⟩
  subst heq
  exact Files.list_of_save (isName_fileName _ _) hlist hsaved

end SchemaFile

/-! ## Stores of written files -/

/-- Of the elements of a list with one key there is only one last. -/
theorem eq_of_last {α β : Type} (key : α → β) {before before' after after' : List α} {x x' : α}
    (h : before ++ x :: after = before' ++ x' :: after') (hkey : key x = key x')
    (hlast : ∀ later ∈ after, key later ≠ key x) (hlast' : ∀ later ∈ after', key later ≠ key x') : x = x' := by
  -- either of the two that is not at the same place is later than the other
  rcases List.append_eq_append_iff.1 h with ⟨between, -, hsplit⟩ | ⟨between, -, hsplit⟩
  · cases between with
    | nil => exact (List.cons.inj hsplit).1
    | cons first between =>
        obtain ⟨rfl, rfl⟩ := List.cons.inj hsplit
        exact absurd hkey.symm (hlast x' (List.mem_append_right between List.mem_cons_self))
  · cases between with
    | nil => exact (List.cons.inj hsplit).1.symm
    | cons first between =>
        obtain ⟨rfl, rfl⟩ := List.cons.inj hsplit
        exact absurd hkey (hlast' x (List.mem_append_right between List.mem_cons_self))

namespace SchemaStore

open SchemaFile (fileName written)

variable {files : List SchemaFile} {directory : FilePath}

/-- A file is in a directory if it was written there and no file with its name was written later; it is in
the store if its text can be read, too. -/
theorem mem_filterMap_written (hnames : ∀ f ∈ files, f.handlerName ≠ "") {read : SchemaFile} :
    read ∈ (Dictionary.ofList (written files)).filterMap (fileIn? directory) ↔
      ∃ before f after, files = before ++ f :: after ∧ SchemaFile.ofText .json (f.render .json) = .ok read ∧
        ∀ later ∈ after, fileName later.handlerName .json ≠ fileName f.handlerName .json := by
  -- Under a written name the file read is the one its text decodes to.
  have hfileIn {f : SchemaFile} (hf : f ∈ files) :
      fileIn? directory (fileName f.handlerName .json, .ofText (f.render .json)) =
        (SchemaFile.ofText .json (f.render .json)).toOption := by
    rw [fileIn?, SchemaFile.ofPath?_fileName (hnames f hf)]
    rfl
  have hok {f : SchemaFile} : (SchemaFile.ofText .json (f.render .json)).toOption = some read ↔
      SchemaFile.ofText .json (f.render .json) = .ok read := by
    cases SchemaFile.ofText .json (f.render .json) <;> simp [Except.toOption]
  rw [List.mem_filterMap]
  constructor
  · rintro ⟨⟨key, tree⟩, hmem, hread⟩
    -- A name stands for the last file written under it, which splits the list there.
    rw [(Dictionary.ascending_ofList _).mem_iff, Dictionary.find?_ofList_iff] at hmem
    obtain ⟨front, back, hsplit, hlast⟩ := hmem
    obtain ⟨before, rest, rfl, -, hrest⟩ := List.map_eq_append_iff.1 hsplit
    obtain ⟨f, after, rfl, hf, rfl⟩ := List.map_eq_cons_iff.1 hrest
    cases hf
    have hmem : f ∈ before ++ f :: after := List.mem_append_right before List.mem_cons_self
    rw [hfileIn hmem] at hread
    refine ⟨before, f, after, rfl, hok.1 hread, ?_⟩
    intro later hlater heq
    exact hlast (SchemaFile.mem_keys_written.2 ⟨later, hlater, heq⟩)
  · rintro ⟨before, f, after, rfl, hread, hlast⟩
    have hmem : f ∈ before ++ f :: after := List.mem_append_right before List.mem_cons_self
    have hfound := (hfileIn hmem).trans (hok.2 hread)
    refine ⟨(fileName f.handlerName .json, .ofText (f.render .json)), ?_, hfound⟩
    rw [(Dictionary.ascending_ofList _).mem_iff, Dictionary.find?_ofList_iff]
    refine ⟨written before, written after, List.map_append, ?_⟩
    intro hkey
    obtain ⟨later, hlater, heq⟩ := SchemaFile.mem_keys_written.1 hkey
    exact hlast later hlater heq

/-- **The store of written files.** The file of a handler is the last one that was written under its file
name, if this is a file of that handler and can be read. -/
theorem get?_written (hnames : ∀ f ∈ files, f.handlerName ≠ "")
    (hread : ∀ f ∈ files, ∀ read, SchemaFile.ofText .json (f.render .json) = .ok read →
      read.handlerName = f.handlerName) {name : String} {read : SchemaFile} :
    (ofEntries directory (Dictionary.ofList (written files))).get? name = some read ↔
      ∃ before f after, files = before ++ f :: after ∧ f.handlerName = name ∧
        SchemaFile.ofText .json (f.render .json) = .ok read ∧
          ∀ later ∈ after, fileName later.handlerName .json ≠ fileName name .json := by
  have hkeys : ∀ a ∈ ((Dictionary.ofList (written files)).filterMap (fileIn? directory)).map
        fun f => (f.handlerName, f),
      ∀ b ∈ ((Dictionary.ofList (written files)).filterMap (fileIn? directory)).map
        fun f => (f.handlerName, f), a.1 = b.1 → a = b := by
    rintro _ ha _ hb hkey
    obtain ⟨g, hg, rfl⟩ := List.mem_map.1 ha
    obtain ⟨g', hg', rfl⟩ := List.mem_map.1 hb
    obtain ⟨before, f, after, hsplit, hf, hlast⟩ := (mem_filterMap_written hnames).1 hg
    obtain ⟨before', f', after', hsplit', hf', hlast'⟩ := (mem_filterMap_written hnames).1 hg'
    have hmem : f ∈ files := hsplit ▸ List.mem_append_right before List.mem_cons_self
    have hmem' : f' ∈ files := hsplit' ▸ List.mem_append_right before' List.mem_cons_self
    -- files of one handler have one name, under which only the last one stays
    have hsame : f.handlerName = f'.handlerName := by
      rw [← hread f hmem g hf, ← hread f' hmem' g' hf']
      exact hkey
    obtain rfl := eq_of_last (fun f : SchemaFile => fileName f.handlerName .json)
      (hsplit.symm.trans hsplit') (congrArg (fileName · .json) hsame) hlast hlast'
    rw [hf] at hf'
    rw [Except.ok.inj hf']
  unfold get?
  rw [ofEntries_files, Dictionary.ofList_of_ascending (Dictionary.ascending_ofList _),
    Dictionary.find?_ofList_iff_mem hkeys]
  constructor
  · intro hmem
    obtain ⟨g, hg, heq⟩ := List.mem_map.1 hmem
    cases heq
    obtain ⟨before, f, after, hsplit, hf, hlast⟩ := (mem_filterMap_written hnames).1 hg
    have hmem : f ∈ files := hsplit ▸ List.mem_append_right before List.mem_cons_self
    have hname := hread f hmem read hf
    exact ⟨before, f, after, hsplit, hname.symm, hf, hname ▸ hlast⟩
  · rintro ⟨before, f, after, hsplit, rfl, hf, hlast⟩
    have hmem : f ∈ files := hsplit ▸ List.mem_append_right before List.mem_cons_self
    have hname := hread f hmem read hf
    have hkept : read ∈ (Dictionary.ofList (written files)).filterMap (fileIn? directory) :=
      (mem_filterMap_written hnames).2 ⟨before, f, after, hsplit, hf, hlast⟩
    rw [← hname]
    exact List.mem_map_of_mem (f := fun f => (f.handlerName, f)) hkept

end SchemaStore

/-! ## Handlers in turn -/

namespace Workshop

/-- A payload has a type expression, and it can be resolved. -/
def Resolves (w : Workshop) (file : FilePath) (expression : Option String) : Prop :=
  ∃ text, expression = some text ∧ ∃ d, (Resolver.answer w.files
    (resolveExpression (w.engine.settings.root.join file) text) w.engine.resolver).1 = .ok d

variable {w : Workshop} {output : FilePath}

/-- A payload has a schema if it has a type that can be resolved: what is resolved is always compiled. -/
theorem isSome_payloadSchema_iff (file : FilePath) (expression : Option String) :
    (w.payloadSchema file expression).1.isSome = true ↔ w.Resolves file expression := by
  cases expression with
  | none => simp [payloadSchema, Resolves]
  | some text =>
      have hresolves : w.Resolves file (some text) ↔ ∃ d, (Resolver.answer w.files
          (resolveExpression (w.engine.settings.root.join file) text) w.engine.resolver).1 = .ok d := by
        simp [Resolves]
      rw [hresolves]
      unfold payloadSchema Engine.resolveSource
      dsimp only
      generalize Resolver.answer w.files (resolveExpression (w.engine.settings.root.join file) text)
        w.engine.resolver = result
      rcases result with ⟨failure | descriptor, resolver⟩ <;> simp [Except.toOption]

/-- The schema of a payload is made without writing anything. -/
theorem files_payloadSchema (file : FilePath) (expression : Option String) :
    (w.payloadSchema file expression).2.files = w.files := by
  cases expression <;> rfl

/-- The schema of a payload can be stored, and so can all that is cached then. -/
theorem payloadSchema_storable (hcache : AllCached (Everywhere PartsStorable) w.cache) (file : FilePath)
    (expression : Option String) :
    (∀ s, (w.payloadSchema file expression).1 = some s → s.Everywhere PartsStorable) ∧
      AllCached (Everywhere PartsStorable) (w.payloadSchema file expression).2.cache := by
  cases expression with
  | none =>
      refine ⟨?_, hcache⟩
      intro s hs
      cases hs
  | some text =>
      obtain ⟨hschema, hkept⟩ := w.engine.resolveSource_storable w.files file text hcache
      refine ⟨?_, hkept⟩
      intro s hs
      -- A failure is dropped here: only a schema that was compiled is left to speak of.
      change (w.engine.resolveSource w.files file text w.cache).1.toOption = some s at hs
      apply hschema s
      cases houtcome : (w.engine.resolveSource w.files file text w.cache).1 with
      | error failure =>
          rw [houtcome] at hs
          cases hs
      | ok s' =>
          rw [houtcome] at hs
          rw [Option.some.inj hs]

/-- A handler whose file is made, and the workshop in which it is made. -/
structure Turn where
  entry : HandlerEntry
  workshop : Workshop

namespace Turn

def file (t : Turn) : SchemaFile := (t.workshop.schemaFile t.entry).1

/-- The handler has a type for requests, and it can be resolved. -/
def ResolvesRequest (t : Turn) : Prop := t.workshop.Resolves t.entry.file t.entry.request

/-- The handler has a type for responses, and it can be resolved after that for requests. -/
def ResolvesResponse (t : Turn) : Prop :=
  (t.workshop.payloadSchema t.entry.file t.entry.request).2.Resolves t.entry.file t.entry.response

/-- A file has a schema for the request if one was resolved. -/
theorem isSome_request_iff (t : Turn) : t.file.request.isSome = true ↔ t.ResolvesRequest :=
  isSome_payloadSchema_iff _ _

/-- A file has a schema for the response if one was resolved. -/
theorem isSome_response_iff (t : Turn) : t.file.response.isSome = true ↔ t.ResolvesResponse :=
  isSome_payloadSchema_iff _ _

end Turn

/-- The turns of handlers, one after the other, as long as their files can be written. -/
def turns (output : FilePath) (w : Workshop) : List HandlerEntry → List Turn
  | [] => []
  | entry :: rest =>
    ⟨entry, w⟩ ::
      match (w.schemaFile entry).1.save (w.schemaFile entry).2.files output .json with
      | .ok (_, files) => turns output { (w.schemaFile entry).2 with files } rest
      | .error _ => []

/-- Each turn starts from what the one before left, until a file cannot be saved. -/
theorem turns_cons (output : FilePath) (w : Workshop) (entry : HandlerEntry) (rest : List HandlerEntry) :
    turns output w (entry :: rest) = ⟨entry, w⟩ ::
      match (w.schemaFile entry).1.save (w.schemaFile entry).2.files output .json with
      | .ok (_, files) => turns output { (w.schemaFile entry).2 with files } rest
      | .error _ => [] := rfl

/-- What one handler does to the workshop: the files of the directory are those of before with its own, and
all that is cached can be stored. -/
theorem list_of_writeAll_cons {entry : HandlerEntry} {rest : List HandlerEntry} {files : Files}
    {entries : List (String × FileTree)} (hlist : w.files.list output = .ok entries)
    (hcache : AllCached (Everywhere PartsStorable) w.cache)
    (h : writeAll output .json w (entry :: rest) = (.ok (), files)) :
    ∃ w' : Workshop, writeAll output .json w' rest = (.ok (), files) ∧
      turns output w (entry :: rest) = ⟨entry, w⟩ :: turns output w' rest ∧
        w'.files.list output =
            .ok (Dictionary.insertAll entries (SchemaFile.written [(w.schemaFile entry).1])) ∧
          AllCached (Everywhere PartsStorable) w'.cache := by
  -- Compiling the two payloads fills the cache and leaves the files as they are.
  have hfiles : (w.schemaFile entry).2.files = w.files :=
    (files_payloadSchema _ _).trans (files_payloadSchema _ _)
  have hrequest := (payloadSchema_storable hcache entry.file entry.request).2
  have hkept : AllCached (Everywhere PartsStorable) (w.schemaFile entry).2.cache :=
    (payloadSchema_storable hrequest entry.file entry.response).2
  change (match (w.schemaFile entry).1.save (w.schemaFile entry).2.files output .json with
    | .ok (_, files) => writeAll output .json { (w.schemaFile entry).2 with files } rest
    | .error e => (.error e, (w.schemaFile entry).2.files)) = (.ok (), files) at h
  rw [turns_cons]
  cases hsave : (w.schemaFile entry).1.save (w.schemaFile entry).2.files output .json with
  | error e =>
      rw [hsave] at h
      cases h
  | ok saved =>
      obtain ⟨path, after⟩ := saved
      rw [hsave] at h
      refine ⟨{ (w.schemaFile entry).2 with files := after }, h, rfl, ?_, hkept⟩
      rw [hfiles] at hsave
      exact SchemaFile.list_of_save hlist hsave

/-- **What is written.** If all files could be written, every handler had its turn, and the files of the
directory are those of before with one file for each turn, put in one after the other. -/
theorem list_of_writeAll {handlers : List HandlerEntry} {files : Files} {entries : List (String × FileTree)}
    (hlist : w.files.list output = .ok entries) (hcache : AllCached (Everywhere PartsStorable) w.cache)
    (h : writeAll output .json w handlers = (.ok (), files)) :
    (turns output w handlers).map (·.entry) = handlers ∧
      files.list output =
        .ok (Dictionary.insertAll entries (SchemaFile.written ((turns output w handlers).map (·.file)))) ∧
      ∀ t ∈ turns output w handlers, AllCached (Everywhere PartsStorable) t.workshop.cache := by
  induction handlers generalizing w entries with
  | nil =>
      cases h
      exact ⟨rfl, hlist, List.forall_mem_nil _⟩
  | cons entry rest ih =>
      -- One turn writes one file over the listing so far, and the rest goes on from there.
      obtain ⟨w', hrest, hturns, hlist', hcache'⟩ := list_of_writeAll_cons hlist hcache h
      obtain ⟨hentries, hwritten, hcaches⟩ := ih hlist' hcache' hrest
      rw [hturns]
      refine ⟨?_, hwritten, List.forall_mem_cons.2 ⟨hcache, hcaches⟩⟩
      rw [List.map_cons, hentries]

/-- The schemas in the file of a turn can be stored, and so its numbers are legible if its doubles are. -/
theorem Turn.storable_file {t : Turn} (hcache : AllCached (Everywhere PartsStorable) t.workshop.cache) :
    ∀ s ∈ t.file.schemas, s.Everywhere PartsStorable := by
  obtain ⟨hrequest, hafter⟩ := payloadSchema_storable hcache t.entry.file t.entry.request
  -- the schema of the response is compiled with what that of the request left in the cache
  obtain ⟨hresponse, -⟩ := payloadSchema_storable hafter t.entry.file t.entry.response
  intro s hs
  rcases SchemaFile.mem_schemas_iff.1 hs with hs | hs
  · exact hrequest s hs
  · exact hresponse s hs

end Workshop

open Workshop (Turn turns)

namespace Arguments

/-- **The store of what was generated.** Let generation in JSON succeed for handlers with names, into a
directory that was empty. Every handler has its turn, and afterwards the directory can be read as a store. It
holds a file for a handler, once, if and only if the file that was written in a turn of the handler can be
read, and no later handler has the same file name. In that file there is a schema for requests if and only if
the handler had a type for requests that could be resolved in its turn, and so it is for responses. A file
can be read, with all that is kept of it, if it is not nested too deep for a reader and the doubles in it are
legible. -/
theorem generate_store (a : Arguments) (files files' : Files) (handlers : List HandlerEntry) (engine : Engine)
    (hformat : a.format = .json) (hempty : files.list a.output = .ok [])
    (hprepare : a.prepare files = .ok (handlers, engine)) (hnames : ∀ entry ∈ handlers, entry.name ≠ "")
    (h : a.generate files = (.ok (), files')) :
    (turns a.output { engine, files } handlers).map (·.entry) = handlers ∧
    (∃ store, SchemaStore.ofDirectory files' a.output = .ok store ∧ store.files.keys.Nodup ∧
      ∀ name read, store.get? name = some read ↔
        ∃ before t after, turns a.output { engine, files } handlers = before ++ t :: after ∧ t.entry.name = name ∧
          SchemaFile.ofText .json (t.file.render .json) = .ok read ∧
            ∀ later ∈ after, SchemaFile.fileName later.entry.name .json ≠ SchemaFile.fileName name .json) ∧
    ∀ t ∈ turns a.output { engine, files } handlers,
      (∀ read, SchemaFile.ofText .json (t.file.render .json) = .ok read → read.handlerName = t.entry.name ∧
        (read.request.isSome = true ↔ t.ResolvesRequest) ∧ (read.response.isSome = true ↔ t.ResolvesResponse)) ∧
      (t.file.toValue.nesting ≤ Json.Draft.nestingLimit → t.file.toValue.LegibleReals →
        SchemaFile.ofText .json (t.file.render .json) = .ok t.file.settled) := by
  -- Once the handlers are read, generating is writing them one after the other.
  have hwrite : Workshop.writeAll a.output .json { engine, files } handlers = (.ok (), files') := by
    unfold generate at h
    rw [hprepare, hformat] at h
    dsimp only at h
    cases hall : Workshop.writeAll a.output .json { engine, files } handlers with
    | mk outcome after =>
        rw [hall] at h
        cases outcome with
        | error e => cases h
        | ok =>
            cases h
            rfl
  obtain ⟨hentries, hlist, hcaches⟩ := Workshop.list_of_writeAll hempty Compile.allCached_nil hwrite
  refine ⟨hentries, ⟨SchemaStore.ofEntries a.output _, by rw [SchemaStore.ofDirectory, hlist], ?_, ?_⟩, ?_⟩
  · rw [SchemaStore.ofEntries_files]
    exact (Dictionary.ascending_ofList _).nodup_keys
  · intro name read
    have hmem {f : SchemaFile} (hf : f ∈ (turns a.output { engine, files } handlers).map (·.file)) :
        ∃ t ∈ turns a.output { engine, files } handlers, t.file = f := List.mem_map.1 hf
    have hnamed : ∀ f ∈ (turns a.output { engine, files } handlers).map (·.file), f.handlerName ≠ "" := by
      intro f hf
      obtain ⟨t, ht, rfl⟩ := hmem hf
      exact hnames t.entry (hentries ▸ List.mem_map_of_mem ht)
    have hkept : ∀ f ∈ (turns a.output { engine, files } handlers).map (·.file), ∀ read,
        SchemaFile.ofText .json (f.render .json) = .ok read → read.handlerName = f.handlerName := by
      intro f hf read hread
      obtain ⟨t, ht, rfl⟩ := hmem hf
      exact (SchemaFile.same_of_ofText_render hread).1
    refine (SchemaStore.get?_written hnamed hkept).trans ?_
    constructor
    · -- Split the files where the turns are split: each file is that of one turn.
      rintro ⟨before, f, after, hsplit, hname, hread, hlast⟩
      obtain ⟨front, back, hturns, -, hback⟩ := List.map_eq_append_iff.1 hsplit
      obtain ⟨t, later, rfl, rfl, rfl⟩ := List.map_eq_cons_iff.1 hback
      refine ⟨front, t, later, hturns, hname, hread, ?_⟩
      intro other hother
      exact hlast other.file (List.mem_map_of_mem hother)
    · rintro ⟨before, t, after, hsplit, hname, hread, hlast⟩
      refine ⟨before.map (·.file), t.file, after.map (·.file), ?_, hname, hread, ?_⟩
      · rw [hsplit, List.map_append, List.map_cons]
      · intro f hf
        obtain ⟨later, hlater, rfl⟩ := List.mem_map.1 hf
        exact hlast later hlater
  · intro t ht
    constructor
    · intro read hread
      obtain ⟨hname, hrequest, hresponse⟩ := SchemaFile.same_of_ofText_render hread
      rw [hrequest, hresponse]
      exact ⟨hname, t.isSome_request_iff, t.isSome_response_iff⟩
    · intro hdepth hreals
      exact SchemaFile.ofText_render rfl (Turn.storable_file (hcaches t ht)) hreals hdepth

/-! ## Two notes -/

namespace Notes

/-- A project that declares a note, and an empty directory. -/
def files : Files where
  root := .directory [("out", .directory []),
    ("proj", .directory [("src", .directory [("lib.rs", .ofText "struct Note { text: String }")])])]
  start := []

/-- Handlers of some names, all of which take a note. -/
def arguments (names : List String) : Arguments where
  project := ⟨"proj"⟩
  output := ⟨"out"⟩
  handlers := names.map fun name => { name, file := ⟨"src/lib.rs"⟩, request := some "Note" }

theorem list_output : files.list ⟨"out"⟩ = .ok [] := by
  have hempty : ((files.list ⟨"out"⟩).toOption.map (·.isEmpty)) = some true := by
    decide +kernel
  cases hlist : files.list ⟨"out"⟩ with
  | error e =>
      rw [hlist] at hempty
      cases hempty
  | ok entries =>
      rw [hlist] at hempty
      rw [List.isEmpty_iff.1 (Option.some.inj hempty)]

/-- What there is after generation that succeeds. -/
theorem exists_generated (names : List String)
    (hprepare : (((arguments names).prepare files).toOption.map fun p => p.1.map (·.name)) = some names)
    (hdone : ((arguments names).generate files).1.toOption.isSome = true) :
    ∃ handlers engine files', (arguments names).prepare files = .ok (handlers, engine) ∧
      handlers.map (·.name) = names ∧ (arguments names).generate files = (.ok (), files') := by
  cases hresult : (arguments names).prepare files with
  | error e =>
      rw [hresult] at hprepare
      cases hprepare
  | ok prepared =>
      rw [hresult] at hprepare
      have hnames := Option.some.inj hprepare
      refine ⟨prepared.1, prepared.2, ((arguments names).generate files).2, rfl, hnames, ?_⟩
      -- Only the names and the success are known here, not the files, which are large.
      cases houtcome : (arguments names).generate files with
      | mk outcome files' =>
          rw [houtcome] at hdone
          cases outcome with
          | error e => cases hdone
          | ok => rfl

end Notes

open Notes (files arguments)

/-- Two handlers whose files have different names. -/
theorem generate_store_notes : ∃ handlers engine files',
    files.list ⟨"out"⟩ = .ok [] ∧ (arguments ["a/b", "a-b"]).prepare files = .ok (handlers, engine) ∧
      handlers.map (·.name) = ["a/b", "a-b"] ∧ (arguments ["a/b", "a-b"]).generate files = (.ok (), files') ∧
        ∃ store, SchemaStore.ofDirectory files' ⟨"out"⟩ = .ok store ∧ store.files.keys.Nodup := by
  obtain ⟨handlers, engine, files', hprepare, hnames, hdone⟩ :=
    Notes.exists_generated ["a/b", "a-b"] (by decide +kernel) (by decide +kernel)
  have hnonempty : ∀ entry ∈ handlers, entry.name ≠ "" := by
    intro entry hentry
    -- The handlers are known by their names only, which is enough for this side condition.
    have hname : entry.name ∈ ["a/b", "a-b"] := hnames ▸ List.mem_map_of_mem hentry
    have hall : ∀ name ∈ ["a/b", "a-b"], name ≠ "" := by decide
    exact hall entry.name hname
  obtain ⟨-, ⟨store, hstore, hkeys, -⟩, -⟩ :=
    generate_store (arguments ["a/b", "a-b"]) files files' handlers engine rfl Notes.list_output hprepare
      hnonempty hdone
  exact ⟨handlers, engine, files', Notes.list_output, hprepare, hnames, hdone, store, hstore, hkeys⟩

/-- A handler may be lost, although no name is empty or given twice: a slash and an underscore make one file
name. -/
theorem generate_loses :
    ¬ ∀ (a : Arguments) (files files' : Files) (handlers : List HandlerEntry) (engine : Engine),
      a.format = .json → files.list a.output = .ok [] → a.prepare files = .ok (handlers, engine) →
        (handlers.map (·.name)).Nodup → (∀ entry ∈ handlers, Text.trim entry.name ≠ "") →
          a.generate files = (.ok (), files') →
            ∃ store, SchemaStore.ofDirectory files' a.output = .ok store ∧
              ∀ entry ∈ handlers, (store.get? entry.name).isSome = true := by
  intro hall
  obtain ⟨handlers, engine, files', hprepare, hnames, hdone⟩ :=
    Notes.exists_generated ["a/b", "a_b"] (by decide +kernel) (by decide +kernel)
  have hfound : ∃ entry ∈ handlers, entry.name = "a/b" := by
    have hmem : "a/b" ∈ handlers.map (·.name) := by
      rw [hnames]
      exact List.mem_cons_self
    exact List.mem_map.1 hmem
  have htrimmed : ∀ entry ∈ handlers, Text.trim entry.name ≠ "" := by
    intro entry hentry
    have hname : entry.name ∈ ["a/b", "a_b"] := hnames ▸ List.mem_map_of_mem hentry
    have hall : ∀ name ∈ ["a/b", "a_b"], Text.trim name ≠ "" := by decide
    exact hall entry.name hname
  obtain ⟨store, hstore, hheld⟩ := hall (arguments ["a/b", "a_b"]) files files' handlers engine rfl
    Notes.list_output hprepare (by rw [hnames]; decide) htrimmed hdone
  obtain ⟨entry, hentry, hname⟩ := hfound
  -- Both handlers are written to `a_b.json`, so only the second one is read back.
  have hlost : ((SchemaStore.ofDirectory files' ⟨"out"⟩).toOption.bind (·.get? "a/b")).isSome = false := by
    have hfiles : files' = ((arguments ["a/b", "a_b"]).generate files).2 := (congrArg Prod.snd hdone).symm
    rw [hfiles]
    decide +kernel
  have hstore : SchemaStore.ofDirectory files' ⟨"out"⟩ = .ok store := hstore
  rw [hstore] at hlost
  have hlost : (store.get? "a/b").isSome = false := hlost
  rw [← hname, hheld entry hentry] at hlost
  cases hlost

end Arguments

end PayloadSchema
