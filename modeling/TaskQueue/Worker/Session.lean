import TaskQueue.Schedule
import TaskQueue.Worker

/-!
A pool of workers that is used from outside: functions are handed to it, and in between everybody
goes on who can. Functions are put together from jobs.
-/

namespace TaskQueue.Worker

/-- A function that does its parts in this order: it breaks down early, sleeps, waits for a
cancellation, hands on its children, and then breaks down or leaves a note of its name. -/
inductive Job
  | mk (name : String) (panicEarly : Bool) (sleep : Option Nat) (awaitCancel : Bool)
      (children : List Job) (panic : Option Panic)

instance : Inhabited Job := ⟨.mk "" false none false [] none⟩

structure Done where
  name : String
  cancelled : Bool
deriving DecidableEq, Repr

namespace Job

def ending (name : String) : Option Panic → Routine Done
  | some cause => .panic cause
  | none => .look fun cancelled => .note ⟨name, cancelled⟩ .finish

mutual

def routine : Job → Routine Done
  | .mk name panicEarly sleep awaitCancel children panic =>
      if panicEarly then .panic ⟨some ("early " ++ name)⟩
      else
        let handed := handOn children (ending name panic)
        let awaited := if awaitCancel then .awaitCancel handed else handed
        match sleep with
        | some milliseconds => .sleep milliseconds awaited
        | none => awaited

def handOn : List Job → Routine Done → Routine Done
  | [], next => next
  | child :: rest, next => .go child.routine (handOn rest next)

end

end Job

def Phase.timers {ν : Type} : Phase ν → List Nat
  | .sleeping wake _ => [wake]
  | _ => []

inductive Actor
  | worker (index : Nat)
  | waiter (index : Nat)
deriving DecidableEq, Repr

namespace Actor

variable {σ ν : Type}

def step (recovery : Recovery σ) (pool : Workers σ ν) : Actor → Option (Workers σ ν)
  | .worker index => pool.stepWorker recovery index
  | .waiter index => pool.stepWaiter index

def timers (pool : Workers σ ν) : Actor → List Nat
  | .worker index => (pool.workers[index]?.map Phase.timers).getD []
  | .waiter _ => []

def isOver (pool : Workers σ ν) : Actor → Bool
  | .worker index => (pool.workers[index]?.map Phase.isFinished).getD false
  | .waiter index => pool.waiters[index]? == some .returned

def born (before after : Workers σ ν) : List Actor :=
  ((List.range after.workers.length).drop before.workers.length).map .worker ++
    ((List.range after.waiters.length).drop before.waiters.length).map .waiter

end Actor

variable {σ ν : Type}

def machine (recovery : Recovery σ) : Machine (Workers σ ν) Actor where
  step := Actor.step recovery
  yields _ _ := false
  cost _ _ := 0
  born := Actor.born
  isOver := Actor.isOver
  now := Workers.now
  timers := Actor.timers
  tick pool moment := (pool.tick moment).getD pool
  dated pool moment := { pool with now := moment }

structure Session (σ ν : Type) where
  recovery : Recovery σ
  schedule : Schedule (Workers σ ν) Actor
  shownEntries : Nat

structure Snapshot (ν : Type) where
  running : Nat
  entries : List (Entry ν)
  rootCancelled : Bool
  cancelled : Bool
  now : Nat

namespace Session

def ofRecovery (recovery : Recovery σ) (shared : σ) : Session σ ν :=
  ⟨recovery, Schedule.ofState (Workers.start shared), 0⟩

def pool (session : Session σ ν) : Workers σ ν := session.schedule.state

def request (session : Session σ ν) (change : Workers σ ν → Workers σ ν) : Session σ ν :=
  { session with
    schedule := session.schedule.advance (machine session.recovery) (change session.pool) }

def recover (session : Session σ ν) (message : String) : Option Panic × Session σ ν :=
  let recovered := session.pool.recover session.recovery message
  (recovered.1, session.request fun _ => recovered.2)

def settle (session : Session σ ν) : Session σ ν :=
  { session with schedule := session.schedule.run (machine session.recovery) }

def passTime (session : Session σ ν) (milliseconds : Nat) : Session σ ν :=
  { session with
    schedule := session.schedule.passTime (machine session.recovery) milliseconds }

def drain (session : Session σ ν) : Session σ ν :=
  let waiting := session.request Workers.wait
  { waiting with
    schedule := waiting.schedule.runUntil (machine session.recovery)
      (fun pool => pool.waiters.all (· == .returned)) Schedule.patience }

def snapshot (session : Session σ ν) : Snapshot ν × Session σ ν :=
  let pool := session.pool
  (⟨pool.running, (pool.trace.take (pool.trace.length - session.shownEntries)).reverse,
      pool.rootCancelled, pool.cancelled, session.schedule.elapsed (machine session.recovery)⟩,
    { session with shownEntries := pool.trace.length })

end Session

end TaskQueue.Worker
