import TaskQueue.Recovery

/-!
A pool of workers. A function that is handed to the pool runs on its own until it returns or breaks
down; it may hand further functions to the pool. A breakdown is caught and the recovery is told of
it; what the recovery breaks down with itself is lost. Who waits for the pool goes on when nothing
that was handed to it is under way any more.
-/

namespace TaskQueue

inductive Routine (ν : Type)
  | finish
  | panic (cause : Panic)
  | sleep (milliseconds : Nat) (next : Routine ν)
  | awaitCancel (next : Routine ν)
  | look (next : Bool → Routine ν)
  | note (note : ν) (next : Routine ν)
  | go (child next : Routine ν)

namespace Worker

inductive Phase (ν : Type)
  | running (routine : Routine ν)
  | sleeping (wake : Nat) (routine : Routine ν)
  | panicked (cause : Panic)
  | recovered
  | finished

namespace Phase

variable {ν : Type}

def isFinished : Phase ν → Bool
  | .finished => true
  | _ => false

end Phase

inductive WaiterPhase
  | called
  | waiting
  | released
  | returned
deriving DecidableEq, Repr

structure Workers (σ ν : Type) where
  workers : List (Phase ν)
  waiters : List WaiterPhase
  rootCancelled : Bool
  cancelled : Bool
  now : Nat
  shared : σ
  trace : List (Entry ν)

namespace Workers

variable {σ ν : Type}

def start (shared : σ) : Workers σ ν := ⟨[], [], false, false, 0, shared, []⟩

def running (pool : Workers σ ν) : Nat := pool.workers.countP fun phase => !phase.isFinished

def go (pool : Workers σ ν) (routine : Routine ν) : Workers σ ν :=
  { pool with workers := pool.workers ++ [.running routine] }

def wait (pool : Workers σ ν) : Workers σ ν :=
  { pool with waiters := pool.waiters ++ [.called] }

def cancel (pool : Workers σ ν) : Workers σ ν := { pool with cancelled := true }

def cancelRoot (pool : Workers σ ν) : Workers σ ν :=
  { pool with rootCancelled := true, cancelled := true }

def recover (pool : Workers σ ν) (recovery : Recovery σ) (message : String) :
    Option Panic × Workers σ ν :=
  let recovered := recovery pool.cancelled message pool.shared
  (recovered.panic?,
    { pool with
      shared := recovered.state
      trace := recovered.entry message none :: pool.trace })

def set (pool : Workers σ ν) (index : Nat) (phase : Phase ν) : Workers σ ν :=
  { pool with workers := pool.workers.set index phase }

def finish (pool : Workers σ ν) (index : Nat) : Workers σ ν :=
  let ended := pool.set index .finished
  if ended.running = 0 then
    { ended with waiters := ended.waiters.map fun phase =>
        if phase = .waiting then .released else phase }
  else ended

def stepRoutine (pool : Workers σ ν) (index : Nat) : Routine ν → Option (Workers σ ν)
  | .finish => some (pool.finish index)
  | .panic cause => some (pool.set index (.panicked cause))
  | .sleep milliseconds next =>
      if milliseconds = 0 then some (pool.set index (.running next))
      else some (pool.set index (.sleeping (pool.now + milliseconds) next))
  | .awaitCancel next => if pool.cancelled then some (pool.set index (.running next)) else none
  | .look next => some (pool.set index (.running (next pool.cancelled)))
  | .note left next =>
      some ({ pool with trace := .note none left :: pool.trace }.set index (.running next))
  | .go child next => some ((pool.go child).set index (.running next))

def stepWorker (pool : Workers σ ν) (recovery : Recovery σ) (index : Nat) :
    Option (Workers σ ν) :=
  match pool.workers[index]? with
  | none => none
  | some phase =>
      match phase with
      | .running routine => pool.stepRoutine index routine
      | .sleeping wake routine =>
          if wake ≤ pool.now then some (pool.set index (.running routine)) else none
      | .panicked cause =>
          some ((pool.recover recovery cause.message).2.set index .recovered)
      | .recovered => some (pool.finish index)
      | .finished => none

def setWaiter (pool : Workers σ ν) (index : Nat) (phase : WaiterPhase) : Workers σ ν :=
  { pool with waiters := pool.waiters.set index phase }

def stepWaiter (pool : Workers σ ν) (index : Nat) : Option (Workers σ ν) :=
  match pool.waiters[index]? with
  | none => none
  | some phase =>
      match phase with
      | .called =>
          some (pool.setWaiter index (if pool.running = 0 then .returned else .waiting))
      | .waiting => none
      | .released => some (pool.setWaiter index .returned)
      | .returned => none

def tick (pool : Workers σ ν) (moment : Nat) : Option (Workers σ ν) :=
  if pool.now ≤ moment then some { pool with now := moment } else none

end Workers

inductive Event (ν : Type)
  | worker (index : Nat)
  | waiter (index : Nat)
  | tick (moment : Nat)
  | go (routine : Routine ν)
  | wait
  | cancel
  | cancelRoot

namespace Workers

variable {σ ν : Type}

def step (pool : Workers σ ν) (recovery : Recovery σ) : Event ν → Option (Workers σ ν)
  | .worker index => pool.stepWorker recovery index
  | .waiter index => pool.stepWaiter index
  | .tick moment => pool.tick moment
  | .go routine => some (pool.go routine)
  | .wait => some pool.wait
  | .cancel => some pool.cancel
  | .cancelRoot => some pool.cancelRoot

end Workers

end Worker

end TaskQueue
