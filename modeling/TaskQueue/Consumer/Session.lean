import TaskQueue.Consumer.Step
import TaskQueue.Schedule

/-!
A consumer that is used from outside: requests are made one after another, and in between everybody
goes on who can. A snapshot shows where everything stands, and what has been left behind since the
snapshot before.
-/

namespace TaskQueue.Consumer

variable {σ ν : Type}

inductive Actor
  | caller (index : Nat)
  | loop (index : Nat)
  | task (index : Nat)
deriving DecidableEq, Repr

namespace Actor

/-- One step of an actor. A loop heeds a cancellation as soon as it can. -/
def step (setup : Setup σ) (system : State σ ν) : Actor → Option (State σ ν)
  | .caller index => system.stepCaller setup index
  | .loop index => system.stepLoop setup index system.cancelled
  | .task index => system.stepTask setup index

def yields (system : State σ ν) : Actor → Bool
  | .loop index => (system.loops[index]?.map Loop.phase) == some .yielding
  | _ => false

/-- Taking a delivery costs two accesses to the queue, asking for a permit one more. -/
def cost (system : State σ ν) : Actor → Nat
  | .loop index =>
      match system.loops[index]?.map Loop.phase with
      | some (.reading _) => 2
      | some (.counted _ _) => if system.permits.isSome then 1 else 0
      | _ => 0
  | _ => 0

def timers (system : State σ ν) : Actor → List Nat
  | .caller _ => []
  | .loop index => (system.loops[index]?.map fun loop => loop.phase.timers).getD []
  | .task index => (system.tasks[index]?.map fun task => task.phase.timers).getD []

def isOver (system : State σ ν) : Actor → Bool
  | .caller index => (system.callers[index]?.map Caller.phase) == some .returned
  | .loop index => (system.loops[index]?.map Loop.phase) == some .finished
  | .task index => ((system.tasks[index]?.map Task.phase).map TaskPhase.isFinished).getD false

def newIndices (before after : Nat) : List Nat := (List.range after).drop before

def born (before after : State σ ν) : List Actor :=
  (newIndices before.callers.length after.callers.length).map .caller ++
    (newIndices before.loops.length after.loops.length).map .loop ++
    (newIndices before.tasks.length after.tasks.length).map .task

end Actor

def machine (setup : Setup σ) : Machine (State σ ν) Actor where
  step := Actor.step setup
  yields := Actor.yields
  cost := Actor.cost
  born := Actor.born
  isOver := Actor.isOver
  now := State.now
  timers := Actor.timers
  tick system moment := (system.tick moment).getD system
  dated system moment := { system with now := moment }

structure Session (σ ν : Type) where
  setup : Setup σ
  schedule : Schedule (State σ ν) Actor
  shownEntries : Nat
  shownLog : Nat
  shownOpened : Nat

structure Snapshot (ν : Type) where
  stats : ConsumerStats
  terminated : List (UInt64 × Termination)
  entries : List (Entry ν)
  opened : List Opening
  consumeCalls : Nat
  returned : List Bool
  rootCancelled : Bool
  cancelled : Bool
  now : Nat

namespace Session

def ofSystem (setup : Setup σ) (system : State σ ν) : Session σ ν :=
  ⟨setup, Schedule.ofState system, 0, 0, 0⟩

def system (session : Session σ ν) : State σ ν := session.schedule.state

def request {α : Type} (session : Session σ ν) (change : State σ ν → α × State σ ν) :
    α × Session σ ν :=
  let changed := change session.system
  (changed.1,
    { session with schedule := session.schedule.advance (machine session.setup) changed.2 })

def settle (session : Session σ ν) : Session σ ν :=
  { session with schedule := session.schedule.run (machine session.setup) }

def passTime (session : Session σ ν) (milliseconds : Nat) : Session σ ν :=
  { session with
    schedule := session.schedule.passTime (machine session.setup) milliseconds }

def allReturned (system : State σ ν) : Bool :=
  system.callers.all fun caller => caller.phase == .returned

def finish (session : Session σ ν) : Session σ ν :=
  let cancelled := (session.request fun system => ((), system.cancelRoot)).2
  { cancelled with
    schedule := cancelled.schedule.runUntil (machine session.setup) allReturned
      Schedule.patience }

def snapshot (session : Session σ ν) : Snapshot ν × Session σ ν :=
  let system := session.system
  ({ stats := ConsumerStats.ofCounts system.counts
     terminated := (system.broker.log.drop session.shownLog).mergeSort
       fun left right => left.1 ≤ right.1
     entries := (system.trace.take (system.trace.length - session.shownEntries)).reverse
     opened := system.broker.opened.drop session.shownOpened
     consumeCalls := system.broker.consumeCalls
     returned := system.callers.map fun caller => caller.phase == .returned
     rootCancelled := system.rootCancelled
     cancelled := system.cancelled
     now := session.schedule.elapsed (machine session.setup) },
    { session with
      shownEntries := system.trace.length
      shownLog := system.broker.log.length
      shownOpened := system.broker.opened.length })

end Session

end TaskQueue.Consumer
