import TaskQueue.Broker

/-!
The broker's log in many hands. Who writes adds an entry, and then gives notice to those who listen
by then. Who waits for the log to have a length begins to listen, looks at the log, and then goes on
or stands by; after a notice it listens and looks again.
-/

namespace TaskQueue.Broker

inductive WriterPhase
  | adding
  /-- The entry is in the log, but no notice has been given. -/
  | added
  | written
deriving DecidableEq, Repr

structure Writer where
  entry : UInt64 × Termination
  phase : WriterPhase
deriving DecidableEq, Repr

inductive WatcherPhase
  | starting
  | listening (noticed : Bool)
  | looked (noticed enough : Bool)
  | standingBy (noticed : Bool)
  | returned
deriving DecidableEq, Repr

structure Watcher where
  length : Nat
  phase : WatcherPhase
deriving DecidableEq, Repr

def WatcherPhase.notice : WatcherPhase → WatcherPhase
  | .listening _ => .listening true
  | .looked _ enough => .looked true enough
  | .standingBy _ => .standingBy true
  | phase => phase

structure Watch where
  log : List (UInt64 × Termination)
  writers : List Writer
  watchers : List Watcher
deriving DecidableEq, Repr

namespace Watch

def ofLog (log : List (UInt64 × Termination)) : Watch := ⟨log, [], []⟩

def write (watch : Watch) (entry : UInt64 × Termination) : Watch :=
  { watch with writers := watch.writers ++ [⟨entry, .adding⟩] }

def waitFor (watch : Watch) (length : Nat) : Watch :=
  { watch with watchers := watch.watchers ++ [⟨length, .starting⟩] }

def setWriter (watch : Watch) (index : Nat) (phase : WriterPhase) : Watch :=
  { watch with writers := watch.writers.modify index fun writer => { writer with phase } }

def setWatcher (watch : Watch) (index : Nat) (phase : WatcherPhase) : Watch :=
  { watch with watchers := watch.watchers.modify index fun watcher => { watcher with phase } }

def notify (watch : Watch) : Watch :=
  { watch with watchers := watch.watchers.map fun watcher =>
      { watcher with phase := watcher.phase.notice } }

def stepWriter (watch : Watch) (index : Nat) : Option Watch :=
  match watch.writers[index]? with
  | none => none
  | some ⟨entry, phase⟩ =>
      match phase with
      | .adding => some ({ watch with log := watch.log ++ [entry] }.setWriter index .added)
      | .added => some (watch.notify.setWriter index .written)
      | .written => none

def stepWatcher (watch : Watch) (index : Nat) : Option Watch :=
  match watch.watchers[index]? with
  | none => none
  | some ⟨length, phase⟩ =>
      match phase with
      | .starting => some (watch.setWatcher index (.listening false))
      | .listening noticed =>
          some (watch.setWatcher index (.looked noticed (length ≤ watch.log.length)))
      | .looked noticed enough =>
          some (watch.setWatcher index (if enough then .returned else .standingBy noticed))
      | .standingBy noticed =>
          if noticed then some (watch.setWatcher index .starting) else none
      | .returned => none

inductive Event
  | write (entry : UInt64 × Termination)
  | waitFor (length : Nat)
  | writer (index : Nat)
  | watcher (index : Nat)

def step (watch : Watch) : Event → Option Watch
  | .write entry => some (watch.write entry)
  | .waitFor length => some (watch.waitFor length)
  | .writer index => watch.stepWriter index
  | .watcher index => watch.stepWatcher index

def runWatcher (index : Nat) : (steps : Nat) → Watch → Watch
  | 0, watch => watch
  | steps + 1, watch =>
      match watch.stepWatcher index with
      | some next => runWatcher index steps next
      | none => watch

def passes (log : List (UInt64 × Termination)) (length : Nat) : Bool :=
  (runWatcher 0 3 ((ofLog log).waitFor length)).watchers.any fun watcher =>
    watcher.phase == .returned

end Watch

end TaskQueue.Broker
