import TaskQueue.Message
import TaskQueue.Payload

/-!
A broker in memory. Each queue name stands for one incarnation of the queue at a time; closing the
queue ends the incarnation, and the next use of the name begins another. The streams of an
incarnation share what waits there. They stand in line for it: the first in line takes the next
message when there is one, and then the line moves on. Every ack and reject is written to a log. A
number of attempts to open a stream, and of acks and rejects, can be made to fail.
-/

namespace TaskQueue

inductive Termination
  | ack (multiple : Bool)
  | reject (requeue : Bool)
deriving DecidableEq, Repr

def Termination.isAck : Termination → Bool
  | .ack _ => true
  | .reject _ => false

structure ConsumeOptions where
  autoAck : Bool
  exclusive : Bool
  noLocal : Bool
  noWait : Bool
deriving DecidableEq, Repr

def ConsumeOptions.none : ConsumeOptions := ⟨false, false, false, false⟩

structure Opening where
  queue : String
  consumerTag : String
  options : ConsumeOptions
deriving DecidableEq, Repr

namespace Broker

/-- One life of a queue. -/
structure Incarnation where
  queue : String
  waiting : List Delivery
  closed : Bool
  /-- The streams that wait for a message, in the order in which they began to. -/
  line : List Nat
deriving DecidableEq, Repr

structure Stream where
  incarnation : Nat
  live : Bool
deriving DecidableEq, Repr

end Broker

structure Broker where
  queues : Dictionary Nat
  incarnations : List Broker.Incarnation
  streams : List Broker.Stream
  published : Nat
  identified : Nat
  log : List (UInt64 × Termination)
  failingConsumes : Nat
  failingTerminations : Nat
  consumeCalls : Nat
  opened : List Opening

namespace Broker

def empty : Broker := ⟨Dictionary.empty, [], [], 0, 0, [], 0, 0, 0, []⟩

def incarnate (broker : Broker) (queue : String) : Nat × Broker :=
  match broker.queues.get? queue with
  | some index => (index, broker)
  | none =>
      let index := broker.incarnations.length
      (index, { broker with
        queues := broker.queues.insert queue index
        incarnations := broker.incarnations ++ [⟨queue, [], false, []⟩] })

def modifyIncarnation (broker : Broker) (index : Nat) (change : Incarnation → Incarnation) :
    Broker :=
  { broker with incarnations := broker.incarnations.modify index change }

def publish (broker : Broker) (queue : String) (messageId : Option String) (body : Bytes) :
    UInt64 × Broker :=
  let tag := (broker.published + 1).toUInt64
  let counted : Broker := { broker with published := broker.published + 1 }
  let found := counted.incarnate queue
  (tag, found.2.modifyIncarnation found.1 fun incarnation =>
    { incarnation with waiting := incarnation.waiting ++ [⟨tag, messageId, body⟩] })

def publishOutbound (broker : Broker) (queue : String) (message : Outbound) : UInt64 × Broker :=
  broker.publish queue (some message.messageId) message.body

def publishTask (broker : Broker) (ids : Nat → MessageId) (queue : String) (param : TaskParam) :
    MessageId × UInt64 × Broker :=
  let envelope : Envelope := ⟨ids broker.identified, Payload.encode param⟩
  let counted : Broker := { broker with identified := broker.identified + 1 }
  (envelope.id, counted.publishOutbound queue envelope.toOutbound)

def consume (broker : Broker) (queue consumerTag : String) (options : ConsumeOptions) :
    Except TransportError Nat × Broker :=
  let called := { broker with consumeCalls := broker.consumeCalls + 1 }
  if 0 < called.failingConsumes then
    (.error (.consume ("injected failure for " ++ queue)),
      { called with failingConsumes := called.failingConsumes - 1 })
  else
    let listed : Broker :=
      { called with opened := called.opened ++ [⟨queue, consumerTag, options⟩] }
    let found := listed.incarnate queue
    (.ok found.2.streams.length,
      { found.2 with streams := found.2.streams ++ [⟨found.1, true⟩] })

inductive Polled
  | next (delivery : Delivery)
  | pending
  | ended
deriving DecidableEq, Repr

def Incarnation.leave (incarnation : Incarnation) (stream : Nat) : Incarnation :=
  { incarnation with line := incarnation.line.filter (· ≠ stream) }

/-- A stream asks for a message; it gets in line if it is not. -/
def Incarnation.poll (incarnation : Incarnation) (stream : Nat) : Polled × Incarnation :=
  let line := if stream ∈ incarnation.line then incarnation.line else incarnation.line ++ [stream]
  let standing := { incarnation with line }
  if line.head? = some stream then
    match incarnation.waiting with
    | delivery :: rest => (.next delivery, { standing.leave stream with waiting := rest })
    | [] => if incarnation.closed then (.ended, standing.leave stream) else (.pending, standing)
  else (.pending, standing)

def poll (broker : Broker) (stream : Nat) : Polled × Broker :=
  match broker.streams[stream]? with
  | none => (.ended, broker)
  | some ⟨index, live⟩ =>
      match live, broker.incarnations[index]? with
      | true, some incarnation =>
          let polled := incarnation.poll stream
          (polled.1, { broker with
            incarnations := broker.incarnations.set index polled.2
            streams := if polled.1 = .ended then broker.streams.set stream ⟨index, false⟩
              else broker.streams })
      | _, _ => (.ended, broker)

/-- Whether asking a stream would bring more than waiting. -/
def hasNews (broker : Broker) (stream : Nat) : Bool :=
  match broker.streams[stream]? with
  | none => true
  | some ⟨index, live⟩ =>
      match live, broker.incarnations[index]? with
      | true, some incarnation =>
          !incarnation.line.contains stream ||
            (incarnation.line.head? == some stream &&
              (!incarnation.waiting.isEmpty || incarnation.closed))
      | _, _ => true

def dropStream (broker : Broker) (stream : Nat) : Broker :=
  match broker.streams[stream]? with
  | none => broker
  | some ⟨index, _⟩ =>
      let dropped : Broker := { broker with streams := broker.streams.set stream ⟨index, false⟩ }
      dropped.modifyIncarnation index fun incarnation => incarnation.leave stream

def closeQueue (broker : Broker) (queue : String) : Broker :=
  match broker.queues.get? queue with
  | none => broker
  | some index =>
      let forgotten : Broker := { broker with queues := broker.queues.erase queue }
      forgotten.modifyIncarnation index fun incarnation => { incarnation with closed := true }

def terminate (broker : Broker) (tag : UInt64) (termination : Termination) :
    Except TransportError Unit × Broker :=
  if 0 < broker.failingTerminations then
    (.error (.acknowledge ("injected failure for delivery " ++ toString tag.toNat)),
      { broker with failingTerminations := broker.failingTerminations - 1 })
  else (.ok (), { broker with log := broker.log ++ [(tag, termination)] })

def failConsumes (broker : Broker) (count : Nat) : Broker :=
  { broker with failingConsumes := count }

def failTerminations (broker : Broker) (count : Nat) : Broker :=
  { broker with failingTerminations := count }

def terminationsOf (broker : Broker) (tag : UInt64) : List Termination :=
  (broker.log.filter fun entry => entry.1 == tag).map Prod.snd

def acked (broker : Broker) : Nat := broker.log.countP fun entry => entry.2.isAck

def rejected (broker : Broker) : Nat := broker.log.countP fun entry => !entry.2.isAck

end Broker

end TaskQueue
