import TaskQueue.Demo
import TaskQueue.Ulid

/-!
The command line of the demonstration: settings come from the environment, lines go to the standard
output, and an error goes to the standard error.
-/

open TaskQueue

def settings : List String :=
  [ConsumerConfig.Variable.tagPrefix, ConsumerConfig.Variable.maxConcurrency,
    ConsumerConfig.Variable.messageTimeout, ConsumerConfig.Variable.reconnectBackoff,
    ConsumerConfig.Variable.payloadPoolCapacity, Demo.logging, Demo.gateway]

/-- The time of day in milliseconds, as it is stamped on a file that is made now. -/
def timeOfDay : IO Int :=
  IO.FS.withTempFile fun _ path => do
    let made := (← path.metadata).modified
    return made.sec * 1000 + made.nsec.toNat / 1000000

def main : IO UInt32 := do
  let environment ← settings.mapM fun name => do return (name, ← IO.getEnv name)
  let lookup := fun name => ((environment.find? fun entry => entry.1 == name).bind Prod.snd)
  let now ← timeOfDay
  let randoms ← Demo.tasks.mapM fun _ => IO.rand 0 (Ulid.randomSize - 1)
  let ids := fun given => Ulid.generate (Int64.ofInt now) (randoms.getD given 0)
  match Demo.run lookup ids with
  | .finished lines =>
      for told in lines do
        IO.println told.text
      return 0
  | .failed error =>
      IO.eprintln ("Error: " ++ error)
      return 1
  | .broken cause =>
      IO.eprintln cause.message
      return 101
