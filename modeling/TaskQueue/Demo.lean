import TaskQueue.Consumer.Build
import TaskQueue.Consumer.Session
import TaskQueue.Handler.Typed
import TaskQueue.Log.Filter

/-!
A demonstration: six messages of every kind are published to a broker in memory, and a consumer
works on them until all of them are acked or rejected.
-/

namespace TaskQueue.Demo

def queue : String := "tasks"

def target : String := "courier_cli"

def line (message : String) (fields : List (String × String)) : Log.Line :=
  ⟨.info, target, message, fields, none⟩

abbrev Remaining := UInt32

def ping : Handler Remaining Log.Line := fun _ param =>
  .note (line "pong" [("params", param.params.compact)]) Work.succeed

/-- Fails while failures are left; looking how many and taking one are two actions. -/
def greet (context : Context) (task : Hello) : Work Remaining Log.Line :=
  .access id fun left =>
    if 0 < left then
      .access (· - 1) fun _ =>
        Work.fail (.handler ("intentional failure (left=" ++ toString left.toNat ++ ")"))
    else
      .note (line ("Hello, " ++ task.name ++ "!") [("message_id", context.messageId.text)])
        Work.succeed

def registry : Registry (Handler Remaining Log.Line) :=
  let pinging := (Registry.empty.register "ping" ping).2
  (pinging.register Hello.type.name (Hello.type.handler greet)).2

def setup (config : ConsumerConfig) : Consumer.Setup Remaining where
  config := config
  unpack := Unpacking.byId
  format := Payload.Format.json
  validator := Validator.ofMaxBytes Validator.defaultMaxBytes
  recovery := Recovery.report
  transport := Consumer.Transport.prompt

def tasks : List TaskParam :=
  [TaskParam.ofName "ping" (.object [("seq", Json.ofNat 1)]),
    TaskParam.ofName Hello.type.name (.object [("name", .text "courier")]),
    TaskParam.ofName Hello.type.name (.object [("name", .text "courier")]),
    TaskParam.ofName "unknown" (.object []),
    TaskParam.ofName Hello.type.name (.object [("nom", .text "missing field")])]

def publish (ids : Nat → MessageId) (state : Broker × List Log.Line) (task : TaskParam) :
    Broker × List Log.Line :=
  let published := state.1.publishTask ids queue task
  (published.2.2, state.2 ++ [line "published" [("message_id", published.1.text),
    ("delivery_tag", toString published.2.1.toNat), ("task_name", task.taskName)]])

def publishAll (ids : Nat → MessageId) : Broker × List Log.Line :=
  let published := tasks.foldl (publish ids) (Broker.empty, [])
  ((published.1.publish queue (some "malformed-1") (Bytes.ofText "\x7bnot json")).2, published.2)

def lineOf : Entry Log.Line → Option Log.Line
  | .line told => some told
  | .note span told => some { told with span }
  | .recovered _ => none

inductive Ending
  | finished (lines : List Log.Line)
  | failed (error : String)
  | broken (cause : Panic)

def logging : String := "RUST_LOG"

def filter (lookup : String → Option String) : Log.Filter :=
  ((lookup logging).bind Log.Filter.parse?).getD (Log.Filter.ofThreshold (some .info))

def gateway : String := "COURIER_AMQP_URL"

def noGateway : String :=
  Text.quoted (gateway ++ " is set but courier-cli was built without the `amqp` feature")

def drained (config : ConsumerConfig) (system : Consumer.State Remaining Log.Line) :
    Consumer.Session Remaining Log.Line :=
  let session := Consumer.Session.ofSystem (setup config) system
  (session.request fun before => ((), before.subscribe queue)).2.settle

def finished (config : ConsumerConfig) (system : Consumer.State Remaining Log.Line) :
    Consumer.Session Remaining Log.Line := (drained config system).snapshot.2.finish

def work (config : ConsumerConfig) (system : Consumer.State Remaining Log.Line) :
    List Log.Line :=
  let shown := (drained config system).snapshot.1
  let last := (finished config system).snapshot.1
  let broker := (finished config system).system.broker
  shown.entries.filterMap lineOf ++ [line "demo queue drained" []] ++
    last.entries.filterMap lineOf ++
    [line "finished" [("acked", toString broker.acked), ("rejected", toString broker.rejected),
      ("stats", last.stats.inspect)]]

def run (lookup : String → Option String) (ids : Nat → MessageId) : Ending :=
  match ConsumerConfig.ofVariables lookup with
  | .error error => .failed error.inspect
  | .ok config =>
      let published := publishAll ids
      let plan : Consumer.Plan Remaining Log.Line :=
        ⟨setup config, registry, ["ping", Hello.type.name]⟩
      match plan.build published.1 1 with
      | .refused error => .failed error.inspect
      | .broken cause => .broken cause
      | .ready system =>
          if (lookup gateway).isSome then .failed noGateway
          else
            .finished ((filter lookup).apply (published.2 ++ work config system))

end TaskQueue.Demo
