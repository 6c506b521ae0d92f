import TaskQueue.Proofs.Consumer.Run

/-!
What one step can do. `TaskMove` lists the changes of a task's phase with the deeds that come with
them, `LoopMove` the changes of a loop's phase with what becomes of the broker. The frames say what
else such a step changes of what several share.
-/

namespace TaskQueue.Consumer

variable {σ ν : Type}

inductive Work.Next : Work σ ν → Work σ ν → Prop
  | sleep (milliseconds : Nat) (next : Work σ ν) : Next (.sleep milliseconds next) next
  | awaitCancel (next : Work σ ν) : Next (.awaitCancel next) next
  | cancel (next : Work σ ν) : Next (.cancel next) next
  | look (next : Bool → Work σ ν) (cancelled : Bool) : Next (.look next) (next cancelled)
  | access (change : σ → σ) (next : σ → Work σ ν) (state : σ) :
      Next (.access change next) (next state)
  | note (left : ν) (next : Work σ ν) : Next (.note left next) next

/-- What a handler sees of the others. -/
structure World (σ : Type) where
  shared : σ
  cancelled : Bool

def World.cancel (world : World σ) : World σ := { world with cancelled := true }

def State.world (system : State σ ν) : World σ := ⟨system.shared, system.cancelled⟩

/-- One step of a handler's work in a world, if it need not wait. -/
inductive Work.Goes (world : World σ) : Work σ ν → Work σ ν → Prop
  | sleep (next : Work σ ν) : Goes world (.sleep 0 next) next
  | awaitCancel (next : Work σ ν) : world.cancelled = true → Goes world (.awaitCancel next) next
  | cancel (next : Work σ ν) : Goes world (.cancel next) next
  | look (next : Bool → Work σ ν) : Goes world (.look next) (next world.cancelled)
  | access (change : σ → σ) (next : σ → Work σ ν) :
      Goes world (.access change next) (next world.shared)
  | note (left : ν) (next : Work σ ν) : Goes world (.note left next) next

theorem Work.Goes.next {world : World σ} {work rest : Work σ ν} (goes : Work.Goes world work rest) :
    Work.Next work rest := by
  cases goes with
  | sleep | awaitCancel | cancel | note => constructor
  | look next => exact .look next world.cancelled
  | access change next => exact .access change next world.shared

inductive Work.Leads (work : Work σ ν) : Work σ ν → Prop
  | refl : Leads work work
  | step {middle last : Work σ ν} : Leads work middle → Work.Next middle last → Leads work last

def Item.filled (item : Item) (param : TaskParam) : Item :=
  { item with lease := { item.lease with param } }

/-- The moves of a task that holds a delivery of a queue, with their deeds. -/
inductive TaskMove (setup : Setup σ) (system : State σ ν) (delivery : Delivery) (queue : String) :
    TaskPhase σ ν → Option (Deed σ ν) → TaskPhase σ ν → Prop
  | unpack {envelope : Envelope} : setup.unpack delivery = .done envelope →
      TaskMove setup system delivery queue .fresh none (.unpacked envelope)
  | unpackFailed {error : TaskError} : setup.unpack delivery = .failed error →
      TaskMove setup system delivery queue .fresh none (.judged .reject)
  | unpackBroke {cause : Panic} : setup.unpack delivery = .panicked cause →
      TaskMove setup system delivery queue .fresh (some (.broke cause)) (.caught cause)
  | borrow {envelope : Envelope} :
      TaskMove setup system delivery queue (.unpacked envelope) none
        (.borrowed ⟨envelope, system.pool.acquire.1⟩)
  | decode {item : Item} {param : TaskParam} :
      setup.format item.envelope.payload item.lease.param = (.done (), param) →
      TaskMove setup system delivery queue (.borrowed item) none (.decoded (item.filled param))
  | decodeFailed {item : Item} {param : TaskParam} {error : TaskError} :
      setup.format item.envelope.payload item.lease.param = (.failed error, param) →
      TaskMove setup system delivery queue (.borrowed item) none (.dropping (item.filled param))
  | decodeBroke {item : Item} {param : TaskParam} {cause : Panic} :
      setup.format item.envelope.payload item.lease.param = (.panicked cause, param) →
      TaskMove setup system delivery queue (.borrowed item) (some (.broke cause))
        (.unwinding (item.filled param) cause)
  | check {item : Item} : setup.validator item.lease.param = .done () →
      TaskMove setup system delivery queue (.decoded item) none (.checked item)
  | checkFailed {item : Item} {error : TaskError} :
      setup.validator item.lease.param = .failed error →
      TaskMove setup system delivery queue (.decoded item) none (.dropping item)
  | checkBroke {item : Item} {cause : Panic} :
      setup.validator item.lease.param = .panicked cause →
      TaskMove setup system delivery queue (.decoded item) (some (.broke cause))
        (.unwinding item cause)
  | invoke {item : Item} {handler : Handler σ ν} :
      system.registry.lookup item.lease.param.taskName = some handler →
      TaskMove setup system delivery queue (.checked item)
        (some (.invoked ⟨system.now, handler, ⟨item.envelope.id, queue⟩, item.lease.param⟩))
        (.running item (handler ⟨item.envelope.id, queue⟩ item.lease.param)
          (setup.config.messageTimeoutMs.map fun milliseconds =>
            ⟨system.now + milliseconds.toNat, Duration.ofMilliseconds milliseconds⟩))
  | unhandled {item : Item} :
      system.registry.lookup item.lease.param.taskName = none →
      TaskMove setup system delivery queue (.checked item)
        (some (.unhandled item.lease.param.taskName))
        (.ended item (.error (.handlerNotFound item.lease.param.taskName)))
  | work {item : Item} {work next : Work σ ν} {deadline : Option Deadline} :
      Work.Goes system.world work next →
      TaskMove setup system delivery queue (.running item work deadline) none
        (.running item next deadline)
  | sleep {item : Item} {milliseconds : Nat} {next : Work σ ν} {deadline : Option Deadline} :
      TaskMove setup system delivery queue (.running item (.sleep milliseconds next) deadline) none
        (.sleeping item (system.now + milliseconds) next deadline)
  | wake {item : Item} {wake : Nat} {work : Work σ ν} {deadline : Option Deadline} :
      wake ≤ system.now →
      TaskMove setup system delivery queue (.sleeping item wake work deadline) none
        (.running item work deadline)
  | finish {item : Item} {result : Except TaskError Unit} {deadline : Option Deadline} :
      TaskMove setup system delivery queue (.running item (.finish result) deadline)
        (some (.answered system.now (.returned result))) (.ended item result)
  | panic {item : Item} {cause : Panic} {deadline : Option Deadline} :
      TaskMove setup system delivery queue (.running item (.panic cause) deadline)
        (some (.answered system.now (.panicked cause))) (.handlerPanicked item cause)
  | overrunWaiting {item : Item} {next : Work σ ν} {moment : Nat} {limit : Duration} :
      system.cancelled = false → moment ≤ system.now →
      TaskMove setup system delivery queue
        (.running item (.awaitCancel next) (some ⟨moment, limit⟩))
        (some (.answered system.now (.overran limit)))
        (.ended item (.error (.handlerTimeout limit)))
  | overrunSleeping {item : Item} {wake : Nat} {work : Work σ ν} {moment : Nat}
      {limit : Duration} :
      moment ≤ system.now → system.now < wake →
      TaskMove setup system delivery queue (.sleeping item wake work (some ⟨moment, limit⟩))
        (some (.answered system.now (.overran limit)))
        (.ended item (.error (.handlerTimeout limit)))
  | recoverHandler {item : Item} {cause : Panic} :
      (system.recover setup cause.message none).1 = none →
      TaskMove setup system delivery queue (.handlerPanicked item cause)
        (some (.recovered cause.message none)) (.handlerRecovered item cause)
  | recoverHandlerBroke {item : Item} {cause further : Panic} :
      (system.recover setup cause.message none).1 = some further →
      TaskMove setup system delivery queue (.handlerPanicked item cause)
        (some (.recovered cause.message (some further))) (.unwinding item further)
  | countHandler {item : Item} {cause : Panic} :
      TaskMove setup system delivery queue (.handlerRecovered item cause) none
        (.ended item (.error (.handlerPanicked cause.message)))
  | succeed {item : Item} :
      TaskMove setup system delivery queue (.ended item (.ok ())) none (.judged .ack)
  | fail {item : Item} {error : TaskError} :
      TaskMove setup system delivery queue (.ended item (.error error)) none (.judged .reject)
  | drop {item : Item} :
      TaskMove setup system delivery queue (.dropping item) none (.judged .reject)
  | unwind {item : Item} {cause : Panic} :
      TaskMove setup system delivery queue (.unwinding item cause) none (.caught cause)
  | recover {cause : Panic} :
      (system.recover setup cause.message none).1 = none →
      TaskMove setup system delivery queue (.caught cause)
        (some (.recovered cause.message none)) .recovered
  | recoverBroke {cause further : Panic} :
      (system.recover setup cause.message none).1 = some further →
      TaskMove setup system delivery queue (.caught cause)
        (some (.recovered cause.message (some further))) (.escaped further)
  | count : TaskMove setup system delivery queue .recovered none (.judged .reject)
  | settle {verdict : Verdict} :
      (system.broker.terminate delivery.tag verdict.termination).1 = .ok () →
      TaskMove setup system delivery queue (.judged verdict)
        (some (.called ⟨delivery.tag, verdict.termination, .ok ()⟩)) (.settled verdict)
  | refuse {verdict : Verdict} {error : TransportError} :
      (system.broker.terminate delivery.tag verdict.termination).1 = .error error →
      TaskMove setup system delivery queue (.judged verdict)
        (some (.called ⟨delivery.tag, verdict.termination, .error error⟩)) (.refused error)
  | countSettled {verdict : Verdict} :
      TaskMove setup system delivery queue (.settled verdict) none .leaving
  | countRefused {error : TransportError} :
      TaskMove setup system delivery queue (.refused error) none .leaving
  | leave : TaskMove setup system delivery queue .leaving none .finished
  | escape {cause : Panic} :
      TaskMove setup system delivery queue (.escaped cause) none (.uncaught cause)
  | recoverEscaped {cause : Panic} :
      TaskMove setup system delivery queue (.uncaught cause)
        (some (.recovered cause.message (system.recover setup cause.message none).1)) .finished

def LoopPhase.paused (setup : Setup σ) (now : Nat) : LoopPhase :=
  if setup.config.reconnectBackoffMs = 0 then .yielding
  else .pausing (now + setup.config.reconnectBackoffMs.toNat)

/-- What does not tell a pause from giving way. -/
theorem LoopPhase.paused_same {α : Type} (pick : LoopPhase → α)
    (same : ∀ ready, pick (.pausing ready) = pick .yielding) (setup : Setup σ) (now : Nat) :
    pick (.paused setup now) = pick .yielding := by
  unfold paused
  split
  · rfl
  · exact same _

theorem Loop.grant_same {α : Type} (pick : LoopPhase → α)
    (same : ∀ stream delivery, pick (.starting stream delivery) = pick (.waiting stream delivery))
    (loop : Loop) : pick loop.grant.phase = pick loop.phase := by
  unfold Loop.grant
  split
  · rename_i waits
    rw [waits]
    exact same _ _
  · rfl

/-- The moves of a loop on a queue: what it pulls, its next phase, and the broker after it. Where it
could heed a cancellation, `heed` says whether it does. -/
inductive LoopMove (setup : Setup σ) (system : State σ ν) (heed : Bool) (queue : String) :
    LoopPhase → Option Delivery → LoopPhase → Broker → Prop
  | leaveTop : system.cancelled = true →
      LoopMove setup system heed queue .top none .stopping system.broker
  | crash {cause : Panic} : system.cancelled = false →
      setup.transport.breakdown queue = some cause →
      LoopMove setup system heed queue .top none (.crashed cause) system.broker
  | begin : system.cancelled = false → setup.transport.breakdown queue = none →
      LoopMove setup system heed queue .top none (.opening (system.now + setup.transport.delay))
        system.broker
  | leaveOpening {ready : Nat} : system.cancelled = true → heed = true →
      LoopMove setup system heed queue (.opening ready) none .stopping system.broker
  | opened {ready stream : Nat} {broker : Broker} : ready ≤ system.now →
      system.broker.consume queue (setup.config.consumerTag queue) .none = (.ok stream, broker) →
      (system.cancelled && heed) = false →
      LoopMove setup system heed queue (.opening ready) none (.reading stream) broker
  | openFailed {ready : Nat} {error : TransportError} {broker : Broker} : ready ≤ system.now →
      system.broker.consume queue (setup.config.consumerTag queue) .none =
        (.error error, broker) →
      (system.cancelled && heed) = false →
      LoopMove setup system heed queue (.opening ready) none (.paused setup system.now) broker
  | leaveStream {stream : Nat} : system.cancelled = true → heed = true →
      LoopMove setup system heed queue (.reading stream) none .top
        (system.broker.dropStream stream)
  | pull {stream : Nat} {delivery : Delivery} {broker : Broker} :
      system.broker.poll stream = (.next delivery, broker) → (system.cancelled && heed) = false →
      LoopMove setup system heed queue (.reading stream) (some delivery)
        (.pulled stream delivery) broker
  | pending {stream : Nat} {broker : Broker} :
      system.broker.poll stream = (.pending, broker) → (system.cancelled && heed) = false →
      LoopMove setup system heed queue (.reading stream) none (.reading stream) broker
  | ended {stream : Nat} {broker : Broker} :
      system.broker.poll stream = (.ended, broker) → (system.cancelled && heed) = false →
      LoopMove setup system heed queue (.reading stream) none
        (if system.cancelled then .top else .paused setup system.now) broker
  | count {stream : Nat} {delivery : Delivery} :
      LoopMove setup system heed queue (.pulled stream delivery) none (.counted stream delivery)
        system.broker
  | getPermit {stream : Nat} {delivery : Delivery} :
      LoopMove setup system heed queue (.counted stream delivery) none
        (.starting stream delivery) system.broker
  | getInLine {stream : Nat} {delivery : Delivery} :
      LoopMove setup system heed queue (.counted stream delivery) none
        (.waiting stream delivery) system.broker
  | startTask {stream : Nat} {delivery : Delivery} :
      LoopMove setup system heed queue (.starting stream delivery) none (.reading stream)
        system.broker
  | leavePause {ready : Nat} : system.cancelled = true → heed = true →
      LoopMove setup system heed queue (.pausing ready) none .stopping system.broker
  | retry {ready : Nat} : ready ≤ system.now →
      LoopMove setup system heed queue (.pausing ready) none .top system.broker
  | giveWay : LoopMove setup system heed queue .yielding none
      (if system.cancelled then .stopping else .top) system.broker
  | stop : LoopMove setup system heed queue .stopping none .finished system.broker
  | recoverCrash {cause : Panic} :
      LoopMove setup system heed queue (.crashed cause) none .finished system.broker

def LoopPhase.born (queue : String) (index : Nat) : LoopPhase → List (Task σ ν)
  | .starting _ delivery => [⟨delivery, queue, index, .fresh⟩]
  | _ => []

def Deed.broker (broker : Broker) : Option (Deed σ ν) → Broker
  | some (.called call) => (broker.terminate call.tag call.termination).2
  | _ => broker

structure TaskFrame (system after : State σ ν) (deed : Option (Deed σ ν)) : Prop where
  broker : after.broker = Deed.broker system.broker deed
  registry : after.registry = system.registry
  now : after.now = system.now
  loops : after.loops = system.loops ∨
    ∃ first, after.loops = system.loops.modify first Loop.grant
  callers : after.callers.map Caller.queue = system.callers.map Caller.queue
  inquiries : after.inquiries = system.inquiries

structure LoopFrame (system after : State σ ν) : Prop where
  registry : after.registry = system.registry
  now : after.now = system.now
  callers : after.callers.map Caller.queue = system.callers.map Caller.queue
  inquiries : after.inquiries = system.inquiries

def Event.broker (broker : Broker) : Event σ ν → Broker
  | .publish queue messageId body => (broker.publish queue messageId body).2
  | .publishTask ids queue param => (broker.publishTask ids queue param).2.2
  | .closeQueue queue => broker.closeQueue queue
  | .failConsumes count => broker.failConsumes count
  | .failTerminations count => broker.failTerminations count
  | _ => broker

def Event.registry (registry : Registry (Handler σ ν)) : Event σ ν → Registry (Handler σ ν)
  | .register name handler => (registry.register name handler).2
  | .unregister name => (registry.unregister name).2
  | _ => registry

structure OutsideFrame (system after : State σ ν) (event : Event σ ν) : Prop where
  broker : after.broker = event.broker system.broker
  registry : after.registry = event.registry system.registry
  tasks : after.tasks = system.tasks
  loops : after.loops = system.loops ∨
    ∃ queue ∈ system.callers.map Caller.queue, after.loops = system.loops ++ [⟨queue, .top⟩]
  callers : system.callers.map Caller.queue ⊆ after.callers.map Caller.queue
  now : system.now ≤ after.now
  inquiries : event ≠ .inquire → (∀ place, event ≠ .load place) →
    after.inquiries = system.inquiries

inductive Moved (setup : Setup σ) (system after : State σ ν) : Event σ ν → Prop
  | task {index : Nat} {task : Task σ ν} {next : TaskPhase σ ν} :
      system.tasks[index]? = some task →
      TaskMove setup system task.delivery task.queue task.phase (system.deed? setup index) next →
      after.tasks = system.tasks.modify index (fun task => { task with phase := next }) →
      TaskFrame system after (system.deed? setup index) → Moved setup system after (.task index)
  | loop {index : Nat} {heed : Bool} {loop : Loop} {pulled : Option Delivery} {next : LoopPhase} :
      system.loops[index]? = some loop →
      system.pull? index heed = pulled.map (loop.queue, ·) →
      LoopMove setup system heed loop.queue loop.phase pulled next after.broker →
      after.loops = system.loops.modify index (fun loop => { loop with phase := next }) →
      after.tasks = system.tasks ++ loop.phase.born loop.queue index →
      LoopFrame system after → Moved setup system after (.loop index heed)
  | outside {event : Event σ ν} : (∀ index, event ≠ .task index) →
      (∀ index heed, event ≠ .loop index heed) → OutsideFrame system after event →
      Moved setup system after event

end TaskQueue.Consumer
