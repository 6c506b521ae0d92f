import TaskQueue.Consumer.State

/-!
What a consumer writes to the log.
-/

namespace TaskQueue.Consumer

open Log

def target : String := Span.target

def Envelope.span (envelope : Envelope) (queue : String) : Span :=
  ⟨envelope.id.text, queue, none⟩

def Item.span (item : Item) (queue : String) : Span :=
  ⟨item.envelope.id.text, queue, some item.lease.param.taskName⟩

namespace Line

def subscribed (queue consumerTag : String) : Line :=
  ⟨.info, target, "subscribe", [("queue", queue), ("consumer_tag", consumerTag)], none⟩

def openFailed (queue : String) (error : TransportError) : Line :=
  ⟨.error, target, "consumer failed", [("queue", queue), ("error", error.message)], none⟩

def streamEnded (queue : String) : Line :=
  ⟨.warn, target, "delivery stream closed, re-opening", [("queue", queue)], none⟩

def loopStopped (queue : String) : Line :=
  ⟨.debug, target, "consume loop stopped", [("queue", queue)], none⟩

def unpackFailed (queue : String) (tag : UInt64) (error : TaskError) : Line :=
  ⟨.error, target, "unmarshal failed",
    [("queue", queue), ("delivery_tag", toString tag.toNat), ("error", error.message)], none⟩

def received (envelope : Envelope) (queue : String) : Line :=
  ⟨.debug, target, "received", [("body", envelope.payload.shown)],
    some (Envelope.span envelope queue)⟩

def decodeFailed (item : Item) (queue : String) (error : TaskError) : Line :=
  ⟨.error, target, "unmarshal failed", [("error", error.message)],
    some (Envelope.span item.envelope queue)⟩

def invalid (item : Item) (queue : String) (error : TaskError) : Line :=
  ⟨.error, target, "validate struct failed", [("error", error.message)], some (item.span queue)⟩

def invoking (item : Item) (queue : String) : Line :=
  ⟨.debug, "courier_core::runtime", "invoking handler",
    [("task_name", item.lease.param.taskName)], some (item.span queue)⟩

def runFailed (item : Item) (queue : String) (error : TaskError) : Line :=
  ⟨.error, target, "run failed", [("error", error.message), ("kind", error.kind.text)],
    some (item.span queue)⟩

def endFailed (queue : String) (tag : UInt64) (error : TransportError) : Line :=
  ⟨.error, target, "handle failed",
    [("queue", queue), ("delivery_tag", toString tag.toNat), ("error", error.message)], none⟩

end Line

end TaskQueue.Consumer
