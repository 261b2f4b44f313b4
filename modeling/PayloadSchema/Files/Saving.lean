import PayloadSchema.Files.Tree

/-!
# Saving files

A text is saved at a path together with the directories on the way to it.
-/

namespace PayloadSchema

/-- Why a text could not be saved. -/
inductive SavingError where
  | noDirectories (path : FilePath)
  | noFile (path : FilePath)
deriving DecidableEq, Repr

def SavingError.message : SavingError → String
  | noDirectories path => "Failed to create parent directories for: " ++ path.text
  | noFile path => "Failed to write to file: " ++ path.text

namespace Files

/-- The files with the directories on the way to a path, if they can be made. -/
def makeParents (files : Files) (path : FilePath) : Except SavingError Files :=
  match path.parent? with
  | some parent =>
    if parent.text = "" ∨ files.isThere parent then .ok files
    else
      match files.makeDirectories? parent with
      | some files => .ok files
      | none => .error (.noDirectories path)
  | none => .ok files

/-- The files with a text saved at a path. -/
def save (files : Files) (path : FilePath) (text : String) : Except SavingError Files := do
  let files ← files.makeParents path
  match files.write? path { text := some text } with
  | some files => return files
  | none => throw (.noFile path)

end Files

end PayloadSchema
