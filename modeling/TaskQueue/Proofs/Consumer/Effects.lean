import TaskQueue.Proofs.Consumer.Moves

/-!
What a step does to what callers, loops and tasks share: the counts, the pool of objects, the
permits, the callers and the world of the handlers. Each of these depends only on the phases before
and after the step. `State.afterTask` and `State.afterLoop` are the whole state after such a step;
`Stepped` puts the effects together with the moves, so that an invariant of the whole system is
shown with one case for each kind of step.
-/

namespace TaskQueue

def Counts.counted (counts : Counts) (counter? : Option Counter) : Counts :=
  counter?.elim counts counts.count

@[simp] theorem Counts.get_counted (counts : Counts) (counter? : Option Counter)
    (counter : Counter) :
    (counts.counted counter?).get counter =
      counts.get counter + if counter? = some counter then 1 else 0 := by
  cases counter? with
  | none => simp [counted]
  | some counted => simp [Counts.counted]

namespace Consumer

variable {σ ν : Type}

namespace TaskPhase

def counter? : TaskPhase σ ν → Option Counter
  | .handlerRecovered _ _ | .recovered => some .recoveredPanics
  | .settled verdict => some verdict.counter
  | .refused _ => some .terminateFailures
  | _ => none

def lease? : TaskPhase σ ν → Option Lease
  | .borrowed item | .decoded item | .checked item | .dropping item => some item.lease
  | .running item _ _ | .sleeping item _ _ _ => some item.lease
  | .handlerPanicked item _ | .handlerRecovered item _ => some item.lease
  | .ended item _ | .unwinding item _ => some item.lease
  | _ => none

def poolAfter (pool : Pool) : TaskPhase σ ν → Pool
  | .unpacked _ => pool.acquire.2
  | .ended item _ | .dropping item | .unwinding item _ => pool.release item.lease
  | _ => pool

/-- A task has its permit until it leaves, or until it breaks down for good. -/
def hasPermit : TaskPhase σ ν → Bool
  | .uncaught _ | .finished => false
  | _ => true

def permitted (system : State σ ν) : TaskPhase σ ν → State σ ν
  | .leaving | .escaped _ => system.returnPermit
  | _ => system

def worldAfter (setup : Setup σ) (world : World σ) : TaskPhase σ ν → World σ
  | .running _ (.cancel _) _ => world.cancel
  | .running _ (.access change _) _ => { world with shared := change world.shared }
  | .handlerPanicked _ cause | .caught cause | .uncaught cause =>
      { world with shared := (setup.recovery world.cancelled cause.message world.shared).state }
  | _ => world

end TaskPhase

namespace LoopPhase

def counter? : LoopPhase → Option Counter
  | .pulled _ _ => some .received
  | _ => none

def counterTo? : LoopPhase → LoopPhase → Option Counter
  | .pulled _ _, _ => some .received
  | .opening _, .pausing _ | .opening _, .yielding => some .streamFailures
  | _, _ => none

def requested (system : State σ ν) (index : Nat) : LoopPhase → State σ ν
  | .counted stream delivery => system.requestPermit index stream delivery
  | _ => system

def worldAfter (setup : Setup σ) (world : World σ) : LoopPhase → World σ
  | .crashed cause =>
      { world with shared := (setup.recovery world.cancelled cause.message world.shared).state }
  | _ => world

def tasksAfter (queue : String) (index : Nat) (tasks : List (Task σ ν)) :
    LoopPhase → List (Task σ ν)
  | .starting _ delivery => tasks ++ [⟨delivery, queue, index, .fresh⟩]
  | _ => tasks

theorem tasksAfter_eq (queue : String) (index : Nat) (tasks : List (Task σ ν))
    (phase : LoopPhase) : phase.tasksAfter queue index tasks = tasks ++ phase.born queue index := by
  cases phase with
  | starting stream delivery => rfl
  | _ => exact (List.append_nil tasks).symm

def isWaiting : LoopPhase → Bool
  | .waiting _ _ => true
  | _ => false

def asks : LoopPhase → Bool
  | .counted _ _ => true
  | _ => false

def hasPermit : LoopPhase → Bool
  | .starting _ _ => true
  | _ => false

end LoopPhase

def Caller.release (caller : Caller) : Caller :=
  if caller.phase = .waiting then { caller with phase := .released } else caller

/-- Callers are released all at once, and only when everything has ended. -/
def Released (system after : State σ ν) : Prop :=
  after.callers = system.callers ∨
    after.isIdle = true ∧ after.callers = system.callers.map Caller.release

namespace State

def afterTask (system : State σ ν) (setup : Setup σ) (index : Nat) (phase next : TaskPhase σ ν)
    (deed : Option (Deed σ ν)) (callers : List Caller) (trace : List (Entry ν)) : State σ ν :=
  { system with
    broker := Deed.broker system.broker deed
    pool := phase.poolAfter system.pool
    permits := (phase.permitted system).permits
    loops := (phase.permitted system).loops
    counts := system.counts.counted phase.counter?
    shared := (phase.worldAfter setup system.world).shared
    cancelled := (phase.worldAfter setup system.world).cancelled
    tasks := system.tasks.modify index fun task => { task with phase := next }
    callers, trace }

def afterLoop (system : State σ ν) (setup : Setup σ) (index : Nat) (queue : String)
    (phase next : LoopPhase) (broker : Broker) (callers : List Caller) (trace : List (Entry ν)) :
    State σ ν :=
  { system with
    broker
    permits := (phase.requested system index).permits
    loops := system.loops.modify index fun loop => { loop with phase := next }
    tasks := phase.tasksAfter queue index system.tasks
    counts := system.counts.counted (phase.counterTo? next)
    shared := (phase.worldAfter setup system.world).shared
    callers, trace }

end State

structure TaskEffect (setup : Setup σ) (system after : State σ ν) (phase : TaskPhase σ ν) :
    Prop where
  counts : after.counts = system.counts.counted phase.counter?
  pool : after.pool = phase.poolAfter system.pool
  permits : after.permits = (phase.permitted system).permits
  loops : after.loops = (phase.permitted system).loops
  callers : Released system after
  world : after.world = phase.worldAfter setup system.world

structure LoopEffect (setup : Setup σ) (system after : State σ ν) (index : Nat)
    (phase next : LoopPhase) : Prop where
  counts : after.counts = system.counts.counted (phase.counterTo? next)
  pool : after.pool = system.pool
  /-- A loop that has counted a delivery asks for a permit; nothing else a loop does touches the
  permits. -/
  permits : (∃ stream delivery, phase = .counted stream delivery ∧
      after = system.requestPermit index stream delivery) ∨
    phase.asks = false ∧ after.permits = system.permits
  callers : Released system after
  world : after.world = phase.worldAfter setup system.world

inductive CallerMove (system : State σ ν) : Caller → List Loop → Caller → Prop
  | call {queue : String} {loop : Option Nat} :
      CallerMove system ⟨queue, loop, .calling⟩ [⟨queue, .top⟩]
        ⟨queue, some system.loops.length, .started⟩
  | wait {queue : String} {loop : Option Nat} : system.isIdle = false →
      CallerMove system ⟨queue, loop, .started⟩ [] ⟨queue, loop, .waiting⟩
  | pass {queue : String} {loop : Option Nat} : system.isIdle = true →
      CallerMove system ⟨queue, loop, .started⟩ [] ⟨queue, loop, .returned⟩
  | leave {queue : String} {loop : Option Nat} :
      CallerMove system ⟨queue, loop, .released⟩ [] ⟨queue, loop, .returned⟩

inductive CallerChange (system after : State σ ν) : Prop
  | none : after.callers = system.callers → after.loops = system.loops → CallerChange system after
  | subscribed (queue : String) : after.callers = system.callers ++ [⟨queue, .none, .calling⟩] →
      after.loops = system.loops → CallerChange system after
  | moved {place : Nat} {caller next : Caller} {born : List Loop} :
      system.callers[place]? = some caller → CallerMove system caller born next →
      after.callers = system.callers.modify place (fun _ => next) →
      after.loops = system.loops ++ born → CallerChange system after

structure OutsideEffect (system after : State σ ν) : Prop where
  counts : after.counts = system.counts
  pool : after.pool = system.pool
  permits : after.permits = system.permits
  callers : CallerChange system after
  shared : after.shared = system.shared
  cancelled : system.cancelled = true → after.cancelled = true

/-- The three kinds of steps, with all that they do. -/
inductive Stepped (setup : Setup σ) (system after : State σ ν) : Event σ ν → Prop
  | task {index : Nat} {task : Task σ ν} {next : TaskPhase σ ν} :
      system.tasks[index]? = some task → system.stepTask setup index = some after →
      TaskMove setup system task.delivery task.queue task.phase (system.deed? setup index) next →
      after.tasks = system.tasks.modify index (fun task => { task with phase := next }) →
      TaskFrame system after (system.deed? setup index) → TaskEffect setup system after task.phase →
      Stepped setup system after (.task index)
  | loop {index : Nat} {heed : Bool} {loop : Loop} {pulled : Option Delivery} {next : LoopPhase} :
      system.loops[index]? = some loop →
      system.pull? index heed = pulled.map (loop.queue, ·) →
      LoopMove setup system heed loop.queue loop.phase pulled next after.broker →
      after.loops = system.loops.modify index (fun loop => { loop with phase := next }) →
      after.tasks = system.tasks ++ loop.phase.born loop.queue index →
      LoopFrame system after → LoopEffect setup system after index loop.phase next →
      Stepped setup system after (.loop index heed)
  | outside {event : Event σ ν} : (∀ index, event ≠ .task index) →
      (∀ index heed, event ≠ .loop index heed) → OutsideFrame system after event →
      OutsideEffect system after → Stepped setup system after event

theorem TaskEffect.cancelled {setup : Setup σ} {system after : State σ ν} {phase : TaskPhase σ ν}
    (effect : TaskEffect setup system after phase) (before : system.cancelled = true) :
    after.cancelled = true := by
  have same : after.cancelled = (phase.worldAfter setup system.world).cancelled :=
    congrArg World.cancelled effect.world
  rw [same]
  unfold TaskPhase.worldAfter
  split <;> first | rfl | exact before

theorem LoopEffect.cancelled {setup : Setup σ} {system after : State σ ν} {index : Nat}
    {phase next : LoopPhase} (effect : LoopEffect setup system after index phase next) :
    after.cancelled = system.cancelled := by
  have same : after.cancelled = (phase.worldAfter setup system.world).cancelled :=
    congrArg World.cancelled effect.world
  rw [same]
  cases phase <;> rfl

theorem LoopEffect.shared {setup : Setup σ} {system after : State σ ν} {index : Nat}
    {phase next : LoopPhase} (effect : LoopEffect setup system after index phase next)
    (unbroken : ∀ cause, phase ≠ .crashed cause) : after.shared = system.shared := by
  have same : after.shared = (phase.worldAfter setup system.world).shared :=
    congrArg World.shared effect.world
  rw [same]
  cases phase with
  | crashed cause => exact absurd rfl (unbroken cause)
  | _ => rfl

theorem LoopPhase.counterTo?_cases (phase next : LoopPhase) :
    phase.counterTo? next = phase.counter? ∨
      phase.counter? = none ∧ phase.counterTo? next = some .streamFailures := by
  cases phase with
  | opening ready =>
      cases next with
      | pausing _ | yielding => exact .inr ⟨rfl, rfl⟩
      | _ => exact .inl rfl
  | _ => exact .inl rfl

namespace State

theorem releaseCallers_eq (system : State σ ν) :
    ∃ callers, system.releaseCallers = { system with callers } ∧
      Released system system.releaseCallers := by
  unfold releaseCallers
  split
  · rename_i idle
    exact ⟨_, rfl, .inr ⟨idle, rfl⟩⟩
  · exact ⟨_, rfl, .inl rfl⟩

end State

theorem Released.queues {system after : State σ ν} (released : Released system after) :
    after.callers.map Caller.queue = system.callers.map Caller.queue := by
  rcases released with same | ⟨_, all⟩
  · rw [same]
  · rw [all, List.map_map]
    apply List.map_congr_left
    intro caller _
    simp only [Function.comp_apply, Caller.release]
    split <;> rfl

end Consumer

end TaskQueue
