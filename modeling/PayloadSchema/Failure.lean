import PayloadSchema.Files.Path

/-!
# Failures

Why a type could not be described or a program could not start. The failures of a single type are
recoverable: whoever asked for it may look elsewhere. A bad configuration and a failing device are not.
-/

namespace PayloadSchema

/-- Why something failed. -/
inductive Failure where
  | io (message : String)
  /-- A type, file or declaration that does not exist. -/
  | notFound (what : String)
  /-- Source text that could not be read. -/
  | parseFailure (file : FilePath) (message : String)
  /-- A type that has no schema. -/
  | unsupportedShape (what : String)
  | invalidConfig (message : String)
  | serialization (message : String)
deriving DecidableEq, Repr

namespace Failure

/-- Whether whoever asked may look elsewhere. -/
def isRecoverable : Failure → Bool
  | notFound _ => true
  | parseFailure .. => true
  | unsupportedShape _ => true
  | _ => false

def message : Failure → String
  | io message => "IO error: " ++ message
  | notFound what => "not found: " ++ what
  | parseFailure file message => "failed to parse " ++ file.text ++ ": " ++ message
  | unsupportedShape what => "unsupported type shape: " ++ what
  | invalidConfig message => "invalid configuration: " ++ message
  | serialization message => "serialization error: " ++ message

/-- The text of the failure beneath, if there is one. -/
def cause? : Failure → Option String
  | io message => some message
  | _ => none

/-- Source text that could not be read and belongs to no file. -/
def ofSource (message : String) : Failure := parseFailure ⟨"<unknown>"⟩ message

end Failure

end PayloadSchema
