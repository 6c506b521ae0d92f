import TaskQueue.Duration
import TaskQueue.Text.Quoted

/-!
What can go wrong with a task, with the transport, and with the making of a consumer. Each error has
a message for readers and a form that shows its case and contents.
-/

namespace TaskQueue

inductive TransportError
  | consume (reason : String)
  | acknowledge (reason : String)
  | closed
deriving DecidableEq, Repr

namespace TransportError

def message : TransportError → String
  | .consume reason => "consume failed: " ++ reason
  | .acknowledge reason => "acknowledge failed: " ++ reason
  | .closed => "channel closed"

def inspect : TransportError → String
  | .consume reason => "Consume(" ++ Text.quoted reason ++ ")"
  | .acknowledge reason => "Acknowledge(" ++ Text.quoted reason ++ ")"
  | .closed => "Closed"

end TransportError

inductive ErrorKind
  | permanent
  | handler
  | infrastructure
deriving DecidableEq, Repr

def ErrorKind.text : ErrorKind → String
  | .permanent => "Permanent"
  | .handler => "Handler"
  | .infrastructure => "Infrastructure"

inductive TaskError
  | decode (reason : String)
  | validation (reason : String)
  | handlerNotFound (taskName : String)
  | handler (reason : String)
  | handlerPanicked (reason : String)
  | handlerTimeout (limit : Duration)
  | transport (error : TransportError)
deriving DecidableEq, Repr

namespace TaskError

def message : TaskError → String
  | .decode reason => "decode failed: " ++ reason
  | .validation reason => "validate struct failed: " ++ reason
  | .handlerNotFound taskName => "handler not found for task_name=" ++ taskName
  | .handler reason => reason
  | .handlerPanicked reason => "handler panicked: " ++ reason
  | .handlerTimeout limit => "handler timed out after " ++ limit.text
  | .transport error => error.message

def kind : TaskError → ErrorKind
  | .decode _ | .validation _ | .handlerNotFound _ => .permanent
  | .handler _ | .handlerPanicked _ | .handlerTimeout _ => .handler
  | .transport _ => .infrastructure

def inspect : TaskError → String
  | .decode reason => "Decode(" ++ Text.quoted reason ++ ")"
  | .validation reason => "Validation(" ++ Text.quoted reason ++ ")"
  | .handlerNotFound taskName => "HandlerNotFound(" ++ Text.quoted taskName ++ ")"
  | .handler reason => "Handler(" ++ Text.quoted reason ++ ")"
  | .handlerPanicked reason => "HandlerPanicked(" ++ Text.quoted reason ++ ")"
  | .handlerTimeout limit => "HandlerTimeout(" ++ limit.text ++ ")"
  | .transport error => "Transport(" ++ error.inspect ++ ")"

end TaskError

inductive BuildError
  | missingTaskTypes (names : List String)
  | invalidConcurrency
  | invalidTimeout
  | invalidVariable (key value : String)
deriving DecidableEq, Repr

namespace BuildError

def message : BuildError → String
  | .missingTaskTypes names =>
      "Missing task types: " ++ Text.quotedList names ++
        ". These tasks were expected but not registered."
  | .invalidConcurrency => "max_concurrency must be at least 1"
  | .invalidTimeout => "message_timeout_ms must be greater than zero"
  | .invalidVariable key value => "invalid value " ++ Text.quoted value ++ " for " ++ key

def inspect : BuildError → String
  | .missingTaskTypes names => "MissingTaskTypes(" ++ Text.quotedList names ++ ")"
  | .invalidConcurrency => "InvalidConcurrency"
  | .invalidTimeout => "InvalidTimeout"
  | .invalidVariable key value =>
      "InvalidEnv \x7b key: " ++ Text.quoted key ++ ", value: " ++ Text.quoted value ++ " \x7d"

end BuildError

/-- What a failure that is no error carries: a text, or something unreadable. -/
structure Panic where
  text? : Option String
deriving DecidableEq, Repr

def Panic.message (panic : Panic) : String := panic.text?.getD "Unknown panic"

def Duration.overflow : Panic := ⟨some "overflow in Duration::new"⟩

inductive Outcome (α : Type)
  | done (value : α)
  | failed (error : TaskError)
  | panicked (panic : Panic)
deriving DecidableEq, Repr

end TaskQueue
