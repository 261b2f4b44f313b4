import PayloadSchema.Handlers.Entry
import PayloadSchema.Text.Blank
import PayloadSchema.Text.Cut

/-!
# Handlers as arguments

On a command line an entry is written `NAME=FILE:REQUEST:RESPONSE`, where the types may be left out. The name
ends at the first equals sign and the file at the first colon after it. The request ends at the first colon
that stands alone, so type expressions may have `::` in them. Blanks around the parts do not count.

* `HandlerEntry.ofArgument` — the entry that an argument stands for, or why it stands for none.
-/

namespace PayloadSchema

/-- Why an argument stands for no entry. -/
inductive HandlerArgumentError where
  | noEqualsSign (argument : String)
  | noName (argument : String)
  | noFile (argument : String)
deriving DecidableEq, Repr

def HandlerArgumentError.message : HandlerArgumentError → String
  | noEqualsSign argument => "expected NAME=FILE:REQUEST:RESPONSE, got \x60" ++ argument ++ "\x60"
  | noName argument => "missing handler name in \x60" ++ argument ++ "\x60"
  | noFile argument => "missing source file in \x60" ++ argument ++ "\x60"

namespace HandlerEntry

/-- A part of an argument, if it has anything but blanks. -/
def part? (cs : List Char) : Option String := Text.nonBlank? (String.ofList cs)

/-- The entry that an argument stands for, or why it stands for none. -/
def ofArgument (argument : String) : Except HandlerArgumentError HandlerEntry := do
  let (name, some rest) := Text.cutAt '=' argument.toList | throw (.noEqualsSign argument)
  let some name := part? name | throw (.noName argument)
  let (file, types) := Text.cutAt ':' rest
  let some file := part? file | throw (.noFile argument)
  let (request, response) := Text.cutLoneColon (types.getD [])
  return { name, file := ⟨file⟩, request := part? request, response := response.bind part? }

end HandlerEntry

end PayloadSchema
