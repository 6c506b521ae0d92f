import TaskQueue.Text.Quoted

/-!
Log lines: a level, the part of the program that speaks, a message, named values, and the message
that was being worked on, if any.
-/

namespace TaskQueue.Log

inductive Level
  | trace
  | debug
  | info
  | warn
  | error
deriving DecidableEq, Repr

namespace Level

def text : Level → String
  | .trace => "TRACE"
  | .debug => "DEBUG"
  | .info => "INFO"
  | .warn => "WARN"
  | .error => "ERROR"

def verbosity : Level → Nat
  | .error => 1
  | .warn => 2
  | .info => 3
  | .debug => 4
  | .trace => 5

end Level

abbrev Threshold := Option Level

namespace Threshold

def verbosity (threshold : Threshold) : Nat := (threshold.map Level.verbosity).getD 0

def admits (threshold : Threshold) (level : Level) : Bool :=
  level.verbosity ≤ threshold.verbosity

end Threshold

structure Span where
  id : String
  queue : String
  taskName : Option String
deriving DecidableEq, Repr

structure Line where
  level : Level
  target : String
  message : String
  fields : List (String × String)
  span : Option Span
deriving DecidableEq, Repr

namespace Span

def name : String := "message"

def level : Level := .info

def target : String := "courier_core::app::consumer"

end Span

def Span.text (span : Span) : String :=
  let name :=
    match span.taskName with
    | some taskName => " task_name=" ++ Text.quoted taskName
    | none => ""
  Span.name ++ "\x7buuid=" ++ span.id ++ " queue=" ++ span.queue ++ name ++ "\x7d: "

def Line.text (line : Line) : String :=
  let span := (line.span.map Span.text).getD ""
  let fields := line.fields.map fun field => " " ++ field.1 ++ "=" ++ field.2
  line.level.text ++ " " ++ span ++ line.target ++ ": " ++ line.message ++ String.join fields

end TaskQueue.Log
