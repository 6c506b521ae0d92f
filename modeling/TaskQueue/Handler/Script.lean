import TaskQueue.Handler.Typed
import TaskQueue.Payload
import TaskQueue.Recovery

/-!
Scripts: handlers put together from a few actions. Every call leaves a record. Each registration of
a script has a count of its own for the calls that are to fail first.
-/

namespace TaskQueue

inductive Script
  | ok
  | describe
  | awaitCancel
  | shutdown
  | fail (error : TaskError)
  | panic (cause : Panic)
  | sleep (milliseconds : Nat)
  | failFirst (count : Nat)
  | sequence (scripts : List Script)
  | hello
  | sum

instance : Inhabited Script := ⟨.ok⟩

inductive Call
  | plain (context : Context) (param : TaskParam) (cancelled : Bool)
  | hello (context : Context) (task : Hello)
  | sum (context : Context) (task : Sum)

namespace Call

def paramJson (param : TaskParam) : Json :=
  .object [("metadata", .object (param.metadata.entries.map fun entry =>
      (entry.1, .text entry.2))),
    ("params", .text param.params.compact), ("task_name", .text param.taskName)]

def toJson : Call → Json
  | .plain context param cancelled =>
      .object [("cancelled", .bool cancelled), ("id", .text context.messageId.text),
        ("param", paramJson param), ("queue", .text context.queue)]
  | .hello context task =>
      .object [("hello", .text task.name), ("id", .text context.messageId.text)]
  | .sum context task =>
      .object [("id", .text context.messageId.text),
        ("label", (task.label.map Json.text).getD .null), ("strict", .bool task.strict),
        ("sum", Json.ofInt task.total)]

end Call

structure Tally where
  /-- The calls so far that were to fail first, by registration. -/
  failures : List Nat
  recoveries : Nat

namespace Tally

def zero : Tally := ⟨[], 0⟩

def failuresOf (tally : Tally) (registration : Nat) : Nat := tally.failures.getD registration 0

def countFailure (tally : Tally) (registration : Nat) : Tally :=
  let known := tally.failures ++ List.replicate (registration + 1 - tally.failures.length) 0
  { tally with failures := known.modify registration (· + 1) }

end Tally

namespace Script

def greet (context : Context) (task : Hello) : Work Tally Call :=
  .note (.hello context task)
    (if task.name = "" then Work.fail (.handler "empty name") else Work.succeed)

def add (context : Context) (task : Sum) : Work Tally Call :=
  .note (.sum context task)
    (if task.strict && task.values.isEmpty then Work.fail (.handler "no values")
      else Work.succeed)

mutual

def act (registration : Nat) (context : Context) (param : TaskParam) :
    Script → Work Tally Call
  | .ok => Work.succeed
  | .describe =>
      .look fun cancelled =>
        Work.fail (.handler (Call.plain context param cancelled).toJson.compact)
  | .awaitCancel => .awaitCancel Work.succeed
  | .shutdown => .cancel Work.succeed
  | .fail error => Work.fail error
  | .panic cause => .panic cause
  | .sleep milliseconds => .sleep milliseconds Work.succeed
  | .failFirst count =>
      .access (·.countFailure registration) fun before =>
        if before.failuresOf registration < count then Work.fail (.handler "not yet")
        else Work.succeed
  | .sequence scripts => actAll registration context param scripts
  | .hello => Hello.type.handler greet context param
  | .sum => Sum.type.handler add context param

def actAll (registration : Nat) (context : Context) (param : TaskParam) :
    List Script → Work Tally Call
  | [] => Work.succeed
  | script :: rest =>
      (act registration context param script).andThen (actAll registration context param rest)

end

def isTyped : Script → Bool
  | .hello | .sum => true
  | _ => false

def handler (script : Script) (registration : Nat) : Handler Tally Call :=
  fun context param =>
    let work := act registration context param script
    if script.isTyped then work
    else .look fun cancelled => .note (.plain context param cancelled) work

/-- A recovery that keeps a record, marked if the consumer is cancelled, and then breaks down itself
the first `count` times. -/
def recorder (count : Nat) : Recovery Tally := fun cancelled message tally =>
  { state := { tally with recoveries := tally.recoveries + 1 }
    record? := some (if cancelled then message ++ " (cancelled)" else message)
    panic? :=
      if tally.recoveries < count then some ⟨some ("recover failed on " ++ message)⟩ else none }

end Script

end TaskQueue
