import TaskQueue.Error
import TaskQueue.Param

/-!
Checks on decoded parameters. The usual check is on the name, the kind of the params and the keys of
the metadata, in this order.
-/

namespace TaskQueue

/-- A check, which may also fail without an error. -/
abbrev Validator := TaskParam → Outcome Unit

namespace Validator

def isNameCharacter (character : Char) : Bool :=
  character.isAlphanum || character ∈ ['.', '_', ':', '/', '-']

def nameFault? (maxBytes : Nat) (name : String) : Option String :=
  if name.isEmpty then some "task_name is required"
  else if maxBytes < name.utf8ByteSize then
    some ("task_name longer than " ++ toString maxBytes ++ " bytes")
  else
    match name.toList.find? fun character => !isNameCharacter character with
    | some character =>
        some ("task_name contains invalid character " ++ Text.quotedSymbol character)
    | none => none

def isParams : Json → Bool
  | .object _ | .list _ | .null => true
  | _ => false

def fault? (maxBytes : Nat) (param : TaskParam) : Option String :=
  match nameFault? maxBytes param.taskName with
  | some fault => some fault
  | none =>
      if !isParams param.params then some "params must be an object or an array"
      else if param.metadata.contains "" then some "metadata keys must not be empty"
      else none

def check (maxBytes : Nat) (param : TaskParam) : Except TaskError Unit :=
  match fault? maxBytes param with
  | some fault => .error (.validation fault)
  | none => .ok ()

def defaultMaxBytes : Nat := 255

def ofMaxBytes (maxBytes : Nat) : Validator := fun param =>
  match check maxBytes param with
  | .ok () => .done ()
  | .error error => .failed error

def crashingOn (name : String) : Validator := fun param =>
  if param.taskName = name then .panicked ⟨some ("validator crashed on " ++ name)⟩ else .done ()

end Validator

end TaskQueue
