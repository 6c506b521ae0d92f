import TaskQueue.Message
import TaskQueue.Param

/-!
Handlers of tasks. A handler is given a message's identity, its queue and the decoded parameter, and
its work is a tree of steps: it may look at the cancellation of its context, wait, change what the
handlers share, leave notes, and in the end succeed, fail with an error, or break down.
-/

namespace TaskQueue

/-- Work on a state of type `σ` that leaves notes of type `ν`. -/
inductive Work (σ ν : Type)
  | finish (result : Except TaskError Unit)
  | panic (cause : Panic)
  | sleep (milliseconds : Nat) (next : Work σ ν)
  | awaitCancel (next : Work σ ν)
  | cancel (next : Work σ ν)
  | look (next : Bool → Work σ ν)
  /-- Changes the state at one stroke, and goes on with the state from before. -/
  | access (change : σ → σ) (next : σ → Work σ ν)
  | note (note : ν) (next : Work σ ν)

structure Context where
  messageId : MessageId
  queue : String
deriving DecidableEq, Repr

abbrev Handler (σ ν : Type) := Context → TaskParam → Work σ ν

namespace Work

variable {σ ν : Type}

def succeed : Work σ ν := .finish (.ok ())

def fail (error : TaskError) : Work σ ν := .finish (.error error)

def andThen (work next : Work σ ν) : Work σ ν :=
  match work with
  | .finish (.ok ()) => next
  | .finish (.error error) => .finish (.error error)
  | .panic cause => .panic cause
  | .sleep milliseconds rest => .sleep milliseconds (rest.andThen next)
  | .awaitCancel rest => .awaitCancel (rest.andThen next)
  | .cancel rest => .cancel (rest.andThen next)
  | .look rest => .look fun cancelled => (rest cancelled).andThen next
  | .access change rest => .access change fun before => (rest before).andThen next
  | .note left rest => .note left (rest.andThen next)

structure Ran (σ ν : Type) where
  /-- Without an outcome the work waits for a cancellation that does not come. -/
  outcome : Option (Outcome Unit)
  cancelled : Bool
  state : σ
  notes : List ν

def run (cancelled : Bool) (state : σ) : Work σ ν → Ran σ ν
  | .finish (.ok ()) => ⟨some (.done ()), cancelled, state, []⟩
  | .finish (.error error) => ⟨some (.failed error), cancelled, state, []⟩
  | .panic cause => ⟨some (.panicked cause), cancelled, state, []⟩
  | .sleep _ next => run cancelled state next
  | .awaitCancel next =>
      if cancelled then run cancelled state next else ⟨none, cancelled, state, []⟩
  | .cancel next => run true state next
  | .look next => run cancelled state (next cancelled)
  | .access change next => run cancelled (change state) (next state)
  | .note left next =>
      let ran := run cancelled state next
      { ran with notes := left :: ran.notes }

end Work

end TaskQueue
