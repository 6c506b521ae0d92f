import TaskQueue.Broker
import TaskQueue.Config
import TaskQueue.Handler
import TaskQueue.Pool
import TaskQueue.Recovery
import TaskQueue.Registry
import TaskQueue.Stats
import TaskQueue.Validator

/-!
The state of a consumer at work. Callers subscribe to queues; each has a loop that opens a stream of
its queue, pulls deliveries from it and hands each of them to a task of its own. Everything that
callers, loops and tasks share is here: the broker, the handlers, the pool of parameter objects, the
permits that limit the tasks, the counts, the clock and the cancellation.
-/

namespace TaskQueue.Consumer

inductive Verdict
  | ack
  | reject
deriving DecidableEq, Repr

namespace Verdict

def termination : Verdict → Termination
  | .ack => .ack false
  | .reject => .reject false

def counter : Verdict → Counter
  | .ack => .acked
  | .reject => .rejected

end Verdict

structure Transport where
  delay : Nat
  breakdown : String → Option Panic

def Transport.prompt : Transport := ⟨0, fun _ => none⟩

structure Setup (σ : Type) where
  config : ConsumerConfig
  unpack : Unpacking
  format : Payload.Format
  validator : Validator
  recovery : Recovery σ
  transport : Transport

structure Item where
  envelope : Envelope
  lease : Lease

structure Deadline where
  moment : Nat
  limit : Duration
deriving DecidableEq, Repr

inductive TaskPhase (σ ν : Type)
  | fresh
  | unpacked (envelope : Envelope)
  | borrowed (item : Item)
  | decoded (item : Item)
  | checked (item : Item)
  | running (item : Item) (work : Work σ ν) (deadline : Option Deadline)
  | sleeping (item : Item) (wake : Nat) (work : Work σ ν) (deadline : Option Deadline)
  | handlerPanicked (item : Item) (cause : Panic)
  | handlerRecovered (item : Item) (cause : Panic)
  | ended (item : Item) (result : Except TaskError Unit)
  /-- Refused before a handler was found. -/
  | dropping (item : Item)
  /-- A breakdown on its way to the delivery. -/
  | unwinding (item : Item) (cause : Panic)
  | caught (cause : Panic)
  | recovered
  | judged (verdict : Verdict)
  | settled (verdict : Verdict)
  | refused (error : TransportError)
  | leaving
  | escaped (cause : Panic)
  /-- The permit has been given back after that. -/
  | uncaught (cause : Panic)
  | finished

def TaskPhase.isFinished {σ ν : Type} : TaskPhase σ ν → Bool
  | .finished => true
  | _ => false

def TaskPhase.timers {σ ν : Type} : TaskPhase σ ν → List Nat
  | .running _ _ (some deadline) => [deadline.moment]
  | .sleeping _ wake _ (some deadline) => [wake, deadline.moment]
  | .sleeping _ wake _ none => [wake]
  | _ => []

structure Task (σ ν : Type) where
  delivery : Delivery
  queue : String
  puller : Nat
  phase : TaskPhase σ ν

inductive LoopPhase
  | top
  | opening (ready : Nat)
  | reading (stream : Nat)
  | pulled (stream : Nat) (delivery : Delivery)
  | counted (stream : Nat) (delivery : Delivery)
  | waiting (stream : Nat) (delivery : Delivery)
  /-- About to start a task for the delivery, with a permit if there is a limit. -/
  | starting (stream : Nat) (delivery : Delivery)
  | pausing (ready : Nat)
  | yielding
  | stopping
  | crashed (cause : Panic)
  | finished
deriving DecidableEq, Repr

def LoopPhase.timers : LoopPhase → List Nat
  | .opening ready => [ready]
  | .pausing ready => [ready]
  | _ => []

structure Loop where
  queue : String
  phase : LoopPhase
deriving DecidableEq, Repr

inductive CallerPhase
  | calling
  | started
  | waiting
  | released
  | returned
deriving DecidableEq, Repr

structure Caller where
  queue : String
  loop : Option Nat
  phase : CallerPhase
deriving DecidableEq, Repr

structure Permits where
  free : Nat
  line : List Nat
deriving DecidableEq, Repr

structure State (σ ν : Type) where
  broker : Broker
  registry : Registry (Handler σ ν)
  pool : Pool
  permits : Option Permits
  counts : Counts
  rootCancelled : Bool
  cancelled : Bool
  now : Nat
  callers : List Caller
  loops : List Loop
  tasks : List (Task σ ν)
  /-- The loads of those who ask for the counts, so far. -/
  inquiries : List (List Nat)
  shared : σ
  /-- What was left behind, last first. -/
  trace : List (Entry ν)

namespace State

variable {σ ν : Type}

def start (setup : Setup σ) (registry : Registry (Handler σ ν)) (broker : Broker) (shared : σ) :
    State σ ν where
  broker := broker
  registry := registry
  pool := Pool.ofCapacity setup.config.payloadPoolCapacity.toNat
  permits := setup.config.maxConcurrency.map fun limit => ⟨limit.toNat, []⟩
  counts := Counts.zero
  rootCancelled := false
  cancelled := false
  now := 0
  callers := []
  loops := []
  tasks := []
  inquiries := []
  shared := shared
  trace := []

def add (system : State σ ν) (entry : Entry ν) : State σ ν :=
  { system with trace := entry :: system.trace }

def say (system : State σ ν) (line : Log.Line) : State σ ν := system.add (.line line)

def count (system : State σ ν) (counter : Counter) : State σ ν :=
  { system with counts := system.counts.count counter }

@[simp] theorem count_counts (system : State σ ν) (counter : Counter) :
    (system.count counter).counts = system.counts.count counter := rfl

def setTask (system : State σ ν) (index : Nat) (phase : TaskPhase σ ν) : State σ ν :=
  { system with tasks := system.tasks.modify index fun task => { task with phase } }

@[simp] theorem setTask_tasks (system : State σ ν) (index : Nat) (phase : TaskPhase σ ν) :
    (system.setTask index phase).tasks =
      system.tasks.modify index fun task => { task with phase } := rfl

@[simp] theorem setTask_loops (system : State σ ν) (index : Nat) (phase : TaskPhase σ ν) :
    (system.setTask index phase).loops = system.loops := rfl

@[simp] theorem setTask_permits (system : State σ ν) (index : Nat) (phase : TaskPhase σ ν) :
    (system.setTask index phase).permits = system.permits := rfl

def setLoop (system : State σ ν) (index : Nat) (phase : LoopPhase) : State σ ν :=
  { system with loops := system.loops.modify index fun loop => { loop with phase } }

@[simp] theorem setLoop_loops (system : State σ ν) (index : Nat) (phase : LoopPhase) :
    (system.setLoop index phase).loops =
      system.loops.modify index fun loop => { loop with phase } := rfl

@[simp] theorem setLoop_tasks (system : State σ ν) (index : Nat) (phase : LoopPhase) :
    (system.setLoop index phase).tasks = system.tasks := rfl

@[simp] theorem setLoop_permits (system : State σ ν) (index : Nat) (phase : LoopPhase) :
    (system.setLoop index phase).permits = system.permits := rfl

def setCaller (system : State σ ν) (index : Nat) (phase : CallerPhase) : State σ ν :=
  { system with callers := system.callers.modify index fun caller => { caller with phase } }

@[simp] theorem setCaller_callers (system : State σ ν) (index : Nat) (phase : CallerPhase) :
    (system.setCaller index phase).callers =
      system.callers.modify index fun caller => { caller with phase } := rfl

def recover (system : State σ ν) (setup : Setup σ) (message : String) (span : Option Log.Span) :
    Option Panic × State σ ν :=
  let recovered := setup.recovery system.cancelled message system.shared
  let changed : State σ ν := { system with shared := recovered.state }
  (recovered.panic?, changed.add (recovered.entry message span))

def isIdle (system : State σ ν) : Bool :=
  system.loops.all (fun loop => loop.phase == .finished) &&
    system.tasks.all fun task => task.phase.isFinished

def releaseCallers (system : State σ ν) : State σ ν :=
  if system.isIdle then
    { system with callers := system.callers.map fun caller =>
        if caller.phase = .waiting then { caller with phase := .released } else caller }
  else system

def finishTask (system : State σ ν) (index : Nat) : State σ ν :=
  (system.setTask index .finished).releaseCallers

def finishLoop (system : State σ ν) (index : Nat) : State σ ν :=
  (system.setLoop index .finished).releaseCallers

end State

def Loop.grant (loop : Loop) : Loop :=
  match loop.phase with
  | .waiting stream delivery => { loop with phase := .starting stream delivery }
  | _ => loop

namespace State

variable {σ ν : Type}

/-- Gives a permit back: to the first in line, or to those that are left. -/
def returnPermit (system : State σ ν) : State σ ν :=
  match system.permits with
  | none => system
  | some ⟨free, []⟩ => { system with permits := some ⟨free + 1, []⟩ }
  | some ⟨free, first :: rest⟩ =>
      { system with
        permits := some ⟨free, rest⟩
        loops := system.loops.modify first Loop.grant }

@[simp] theorem returnPermit_unlimited {system : State σ ν} (unlimited : system.permits = none) :
    system.returnPermit = system := by
  simp only [returnPermit, unlimited]

theorem returnPermit_free {system : State σ ν} {free : Nat}
    (present : system.permits = some ⟨free, []⟩) :
    system.returnPermit = { system with permits := some ⟨free + 1, []⟩ } := by
  simp only [returnPermit, present]

theorem returnPermit_granted {system : State σ ν} {free first : Nat} {rest : List Nat}
    (present : system.permits = some ⟨free, first :: rest⟩) :
    system.returnPermit = { system with
      permits := some ⟨free, rest⟩
      loops := system.loops.modify first Loop.grant } := by
  simp only [returnPermit, present]

def shutdown (system : State σ ν) : State σ ν := { system with cancelled := true }

def cancelRoot (system : State σ ν) : State σ ν :=
  { system with rootCancelled := true, cancelled := true }

def subscribe (system : State σ ν) (queue : String) : State σ ν :=
  { system with callers := system.callers ++ [⟨queue, none, .calling⟩] }

def register (system : State σ ν) (name : String) (handler : Handler σ ν) : State σ ν :=
  { system with registry := (system.registry.register name handler).2 }

def unregister (system : State σ ν) (name : String) : Bool × State σ ν :=
  let removed := system.registry.unregister name
  (removed.1, { system with registry := removed.2 })

def inquire (system : State σ ν) : State σ ν :=
  { system with inquiries := system.inquiries ++ [[]] }

end State

end TaskQueue.Consumer
