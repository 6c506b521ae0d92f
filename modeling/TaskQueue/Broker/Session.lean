import TaskQueue.Broker

/-!
A broker with the streams that are open, each under a name, and the deliveries that were taken from
them and not yet ended. Nothing happens between two requests.
-/

namespace TaskQueue.Broker

structure Session where
  broker : Broker
  streams : Dictionary Nat
  held : List Delivery

namespace Session

def empty : Session := ⟨Broker.empty, Dictionary.empty, []⟩

def update {α : Type} (session : Session) (change : Broker → α × Broker) : α × Session :=
  let changed := change session.broker
  (changed.1, { session with broker := changed.2 })

def consume (session : Session) (name queue consumerTag : String) (options : ConsumeOptions) :
    Except TransportError Unit × Session :=
  match session.broker.consume queue consumerTag options with
  | (.error error, broker) => (.error error, { session with broker })
  | (.ok stream, broker) =>
      let kept :=
        match session.streams.get? name with
        | some before => broker.dropStream before
        | none => broker
      (.ok (), { session with broker := kept, streams := session.streams.insert name stream })

def next (session : Session) (name : String) : Option Polled × Session :=
  match session.streams.get? name with
  | none => (none, session)
  | some stream =>
      match session.broker.poll stream with
      | (.next delivery, broker) =>
          (some (.next delivery), { session with broker, held := session.held ++ [delivery] })
      | (.pending, broker) => (some .pending, { session with broker })
      | (.ended, broker) =>
          (some .ended, { session with broker, streams := session.streams.erase name })

def drop (session : Session) (name : String) : Bool × Session :=
  match session.streams.get? name with
  | none => (false, session)
  | some stream =>
      (true, { session with
        broker := session.broker.dropStream stream
        streams := session.streams.erase name })

/-- Acks or rejects a delivery that is held; it is gone even if that fails. -/
def terminate (session : Session) (tag : UInt64) (termination : Termination) :
    Option (Except TransportError Unit) × Session :=
  if session.held.any fun delivery => delivery.tag == tag then
    let ended := session.broker.terminate tag termination
    (some ended.1,
      { session with
        broker := ended.2
        held := session.held.filter fun delivery => delivery.tag != tag })
  else (none, session)

end Session

end TaskQueue.Broker
