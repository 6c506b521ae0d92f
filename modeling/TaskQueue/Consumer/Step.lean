import TaskQueue.Consumer.Lines

/-!
How a consumer moves. Each step is one action on what is shared, by a caller, a loop or a task, or
something that is done from outside; a step that nobody can take now has no result. The clock moves
on between any two steps and by as much as it likes, so that a step takes time and whoever is due
may be late.
-/

namespace TaskQueue.Consumer

variable {σ ν : Type}

namespace State

def timeOut (system : State σ ν) (index : Nat) (item : Item) (deadline : Option Deadline) :
    Option (State σ ν) :=
  match deadline with
  | none => none
  | some ⟨moment, limit⟩ =>
      if moment ≤ system.now then
        some (system.setTask index (.ended item (.error (.handlerTimeout limit))))
      else none

/-- One step of a handler. While it waits it can run out of time. -/
def stepWork (system : State σ ν) (index : Nat) (queue : String) (item : Item)
    (deadline : Option Deadline) : Work σ ν → Option (State σ ν)
  | .finish result => some (system.setTask index (.ended item result))
  | .panic cause => some (system.setTask index (.handlerPanicked item cause))
  | .sleep milliseconds next =>
      if milliseconds = 0 then some (system.setTask index (.running item next deadline))
      else some (system.setTask index (.sleeping item (system.now + milliseconds) next deadline))
  | .awaitCancel next =>
      if system.cancelled then some (system.setTask index (.running item next deadline))
      else system.timeOut index item deadline
  | .cancel next => some (system.shutdown.setTask index (.running item next deadline))
  | .look next =>
      some (system.setTask index (.running item (next system.cancelled) deadline))
  | .access change next =>
      let changed : State σ ν := { system with shared := change system.shared }
      some (changed.setTask index (.running item (next system.shared) deadline))
  | .note left next =>
      some ((system.add (.note (some (item.span queue)) left)).setTask index
        (.running item next deadline))

def dispatch (system : State σ ν) (setup : Setup σ) (index : Nat) (queue : String) (item : Item) :
    State σ ν :=
  match system.registry.lookup item.lease.param.taskName with
  | none =>
      system.setTask index (.ended item (.error (.handlerNotFound item.lease.param.taskName)))
  | some handler =>
      let deadline := setup.config.messageTimeoutMs.map fun milliseconds =>
        Deadline.mk (system.now + milliseconds.toNat) (Duration.ofMilliseconds milliseconds)
      (system.say (Line.invoking item queue)).setTask index
        (.running item (handler ⟨item.envelope.id, queue⟩ item.lease.param) deadline)

def decode (system : State σ ν) (setup : Setup σ) (index : Nat) (queue : String) (item : Item) :
    State σ ν :=
  let decoded := setup.format item.envelope.payload item.lease.param
  let filled : Item := { item with lease := { item.lease with param := decoded.2 } }
  match decoded.1 with
  | .done () => system.setTask index (.decoded filled)
  | .failed error =>
      (system.say (Line.decodeFailed filled queue error)).setTask index (.dropping filled)
  | .panicked cause => system.setTask index (.unwinding filled cause)

def returnLease (system : State σ ν) (item : Item) : State σ ν :=
  { system with pool := system.pool.release item.lease }

def conclude (system : State σ ν) (index : Nat) (queue : String) (item : Item) :
    Except TaskError Unit → State σ ν
  | .ok () => (system.returnLease item).setTask index (.judged .ack)
  | .error error =>
      ((system.returnLease item).say (Line.runFailed item queue error)).setTask index
        (.judged .reject)

def terminate (system : State σ ν) (index : Nat) (tag : UInt64) (verdict : Verdict) :
    State σ ν :=
  let ended := system.broker.terminate tag verdict.termination
  let changed : State σ ν := { system with broker := ended.2 }
  match ended.1 with
  | .ok () => changed.setTask index (.settled verdict)
  | .error error => changed.setTask index (.refused error)

def stepTask (system : State σ ν) (setup : Setup σ) (index : Nat) : Option (State σ ν) :=
  match system.tasks[index]? with
  | none => none
  | some ⟨delivery, queue, _, phase⟩ =>
      match phase with
      | .fresh =>
          match setup.unpack delivery with
          | .done envelope =>
              some ((system.say (Line.received envelope queue)).setTask index (.unpacked envelope))
          | .failed error =>
              some ((system.say (Line.unpackFailed queue delivery.tag error)).setTask index
                (.judged .reject))
          | .panicked cause => some (system.setTask index (.caught cause))
      | .unpacked envelope =>
          let acquired := system.pool.acquire
          let changed : State σ ν := { system with pool := acquired.2 }
          some (changed.setTask index (.borrowed ⟨envelope, acquired.1⟩))
      | .borrowed item => some (system.decode setup index queue item)
      | .decoded item =>
          match setup.validator item.lease.param with
          | .done () => some (system.setTask index (.checked item))
          | .failed error =>
              some ((system.say (Line.invalid item queue error)).setTask index (.dropping item))
          | .panicked cause => some (system.setTask index (.unwinding item cause))
      | .checked item => some (system.dispatch setup index queue item)
      | .running item work deadline => system.stepWork index queue item deadline work
      | .sleeping item wake work deadline =>
          if wake ≤ system.now then some (system.setTask index (.running item work deadline))
          else system.timeOut index item deadline
      | .handlerPanicked item cause =>
          let seen := system.recover setup cause.message (some (item.span queue))
          match seen.1 with
          | none => some (seen.2.setTask index (.handlerRecovered item cause))
          | some further => some (seen.2.setTask index (.unwinding item further))
      | .handlerRecovered item cause =>
          some ((system.count .recoveredPanics).setTask index
            (.ended item (.error (.handlerPanicked cause.message))))
      | .ended item result => some (system.conclude index queue item result)
      | .dropping item => some ((system.returnLease item).setTask index (.judged .reject))
      | .unwinding item cause => some ((system.returnLease item).setTask index (.caught cause))
      | .caught cause =>
          let seen := system.recover setup cause.message none
          match seen.1 with
          | none => some (seen.2.setTask index .recovered)
          | some further => some (seen.2.setTask index (.escaped further))
      | .recovered => some ((system.count .recoveredPanics).setTask index (.judged .reject))
      | .judged verdict => some (system.terminate index delivery.tag verdict)
      | .settled verdict => some ((system.count verdict.counter).setTask index .leaving)
      | .refused error =>
          some (((system.say (Line.endFailed queue delivery.tag error)).count
            .terminateFailures).setTask index .leaving)
      | .leaving => some (system.returnPermit.finishTask index)
      | .escaped cause => some (system.returnPermit.setTask index (.uncaught cause))
      | .uncaught cause => some ((system.recover setup cause.message none).2.finishTask index)
      | .finished => none

def pause (system : State σ ν) (setup : Setup σ) (index : Nat) : State σ ν :=
  if setup.config.reconnectBackoffMs = 0 then system.setLoop index .yielding
  else system.setLoop index (.pausing (system.now + setup.config.reconnectBackoffMs.toNat))

def beginOpening (system : State σ ν) (setup : Setup σ) (index : Nat) (queue : String) :
    State σ ν :=
  match setup.transport.breakdown queue with
  | some cause => system.setLoop index (.crashed cause)
  | none => system.setLoop index (.opening (system.now + setup.transport.delay))

def openStream (system : State σ ν) (setup : Setup σ) (index : Nat) (queue : String) :
    State σ ν :=
  let answer := system.broker.consume queue (setup.config.consumerTag queue) .none
  let changed : State σ ν := { system with broker := answer.2 }
  match answer.1 with
  | .ok stream => changed.setLoop index (.reading stream)
  | .error error =>
      ((changed.say (Line.openFailed queue error)).count .streamFailures).pause setup index

def pull (system : State σ ν) (setup : Setup σ) (index : Nat) (queue : String) (stream : Nat) :
    State σ ν :=
  let polled := system.broker.poll stream
  let changed : State σ ν := { system with broker := polled.2 }
  match polled.1 with
  | .next delivery => changed.setLoop index (.pulled stream delivery)
  | .pending => changed
  | .ended =>
      let told := changed.say (Line.streamEnded queue)
      if told.cancelled then told.setLoop index .top else told.pause setup index

def requestPermit (system : State σ ν) (index stream : Nat) (delivery : Delivery) : State σ ν :=
  match system.permits with
  | none => system.setLoop index (.starting stream delivery)
  | some ⟨0, line⟩ =>
      let lined : State σ ν := { system with permits := some ⟨0, line ++ [index]⟩ }
      lined.setLoop index (.waiting stream delivery)
  | some ⟨free + 1, line⟩ =>
      let permitted : State σ ν := { system with permits := some ⟨free, line⟩ }
      permitted.setLoop index (.starting stream delivery)

section Permit

variable {system : State σ ν} {index stream free : Nat} {line : List Nat} {delivery : Delivery}

theorem requestPermit_unlimited (unlimited : system.permits = none) :
    system.requestPermit index stream delivery =
      system.setLoop index (.starting stream delivery) := by
  simp only [requestPermit, unlimited]

theorem requestPermit_lined (present : system.permits = some ⟨0, line⟩) :
    system.requestPermit index stream delivery =
      setLoop { system with permits := some ⟨0, line ++ [index]⟩ } index
        (.waiting stream delivery) := by
  simp only [requestPermit, present]

theorem requestPermit_granted (present : system.permits = some ⟨free + 1, line⟩) :
    system.requestPermit index stream delivery =
      setLoop { system with permits := some ⟨free, line⟩ } index (.starting stream delivery) := by
  simp only [requestPermit, present]

end Permit

def startTask (system : State σ ν) (index : Nat) (queue : String) (stream : Nat)
    (delivery : Delivery) : State σ ν :=
  let started : State σ ν :=
    { system with tasks := system.tasks ++ [⟨delivery, queue, index, .fresh⟩] }
  started.setLoop index (.reading stream)

def changeBroker (system : State σ ν) (change : Broker → Broker) : State σ ν :=
  { system with broker := change system.broker }

/-- One step of a loop. Where a loop waits for a cancellation and for something else, and both have
come, `heed` chooses the cancellation. -/
def stepLoop (system : State σ ν) (setup : Setup σ) (index : Nat) (heed : Bool) :
    Option (State σ ν) :=
  match system.loops[index]? with
  | none => none
  | some ⟨queue, phase⟩ =>
      match phase with
      | .top =>
          if system.cancelled then some (system.setLoop index .stopping)
          else some (system.beginOpening setup index queue)
      | .opening ready =>
          if system.cancelled && heed then some (system.setLoop index .stopping)
          else if ready ≤ system.now then some (system.openStream setup index queue)
          else none
      | .reading stream =>
          if system.cancelled && heed then
            some ((system.changeBroker fun broker => broker.dropStream stream).setLoop index .top)
          else if system.broker.hasNews stream then some (system.pull setup index queue stream)
          else none
      | .pulled stream delivery =>
          some ((system.count .received).setLoop index (.counted stream delivery))
      | .counted stream delivery => some (system.requestPermit index stream delivery)
      | .waiting _ _ => none
      | .starting stream delivery => some (system.startTask index queue stream delivery)
      | .pausing ready =>
          if system.cancelled && heed then some (system.setLoop index .stopping)
          else if ready ≤ system.now then some (system.setLoop index .top)
          else none
      | .yielding =>
          some (system.setLoop index (if system.cancelled then .stopping else .top))
      | .stopping => some ((system.say (Line.loopStopped queue)).finishLoop index)
      | .crashed cause => some ((system.recover setup cause.message none).2.finishLoop index)
      | .finished => none

def startLoop (system : State σ ν) (setup : Setup σ) (index : Nat) (queue : String) :
    State σ ν :=
  let told := system.say (Line.subscribed queue (setup.config.consumerTag queue))
  { told with
    loops := told.loops ++ [⟨queue, .top⟩]
    callers := told.callers.modify index fun caller =>
      { caller with loop := some told.loops.length, phase := .started } }

def stepCaller (system : State σ ν) (setup : Setup σ) (index : Nat) : Option (State σ ν) :=
  match system.callers[index]? with
  | none => none
  | some ⟨queue, _, phase⟩ =>
      match phase with
      | .calling => some (system.startLoop setup index queue)
      | .started =>
          some (system.setCaller index (if system.isIdle then .returned else .waiting))
      | .waiting => none
      | .released => some (system.setCaller index .returned)
      | .returned => none

def load (system : State σ ν) (index : Nat) : Option (State σ ν) :=
  match system.inquiries[index]? with
  | none => none
  | some loads =>
      match Counter.all[loads.length]? with
      | none => none
      | some counter =>
          some { system with
            inquiries := system.inquiries.set index (loads ++ [system.counts.get counter]) }

def stats? (system : State σ ν) (index : Nat) : Option ConsumerStats :=
  match system.inquiries[index]? with
  | none => none
  | some loads =>
      if loads.length = Counter.all.length then
        some (ConsumerStats.ofLoads fun counter => loads.getD (Counter.all.idxOf counter) 0)
      else none

def tick (system : State σ ν) (moment : Nat) : Option (State σ ν) :=
  if system.now ≤ moment then some { system with now := moment } else none

end State

inductive Event (σ ν : Type)
  | caller (index : Nat)
  | loop (index : Nat) (heed : Bool)
  | task (index : Nat)
  | load (index : Nat)
  | tick (moment : Nat)
  | subscribe (queue : String)
  | inquire
  | cancelRoot
  | shutdown
  | register (name : String) (handler : Handler σ ν)
  | unregister (name : String)
  | publish (queue : String) (messageId : Option String) (body : Bytes)
  | publishTask (ids : Nat → MessageId) (queue : String) (param : TaskParam)
  | closeQueue (queue : String)
  | failConsumes (count : Nat)
  | failTerminations (count : Nat)

namespace State

def step (system : State σ ν) (setup : Setup σ) : Event σ ν → Option (State σ ν)
  | .caller index => system.stepCaller setup index
  | .loop index heed => system.stepLoop setup index heed
  | .task index => system.stepTask setup index
  | .load index => system.load index
  | .tick moment => system.tick moment
  | .subscribe queue => some (system.subscribe queue)
  | .inquire => some system.inquire
  | .cancelRoot => some system.cancelRoot
  | .shutdown => some system.shutdown
  | .register name handler => some (system.register name handler)
  | .unregister name => some (system.unregister name).2
  | .publish queue messageId body =>
      some (system.changeBroker fun broker => (broker.publish queue messageId body).2)
  | .publishTask ids queue param =>
      some (system.changeBroker fun broker => (broker.publishTask ids queue param).2.2)
  | .closeQueue queue => some (system.changeBroker fun broker => broker.closeQueue queue)
  | .failConsumes count => some (system.changeBroker fun broker => broker.failConsumes count)
  | .failTerminations count =>
      some (system.changeBroker fun broker => broker.failTerminations count)

end State

end TaskQueue.Consumer
