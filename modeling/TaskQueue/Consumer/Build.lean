import TaskQueue.Consumer.State

/-!
Building a consumer. Settings that make no sense are refused first, then expected tasks that nobody
handles; limits beyond what can be set up break down.
-/

namespace TaskQueue.Consumer

structure Plan (σ ν : Type) where
  setup : Setup σ
  registry : Registry (Handler σ ν)
  expected : List String

inductive Built (σ ν : Type)
  | refused (error : BuildError)
  | broken (cause : Panic)
  | ready (system : State σ ν)

def maxPermits : Nat := 0x1FFFFFFFFFFFFFFF

def tooManyPermits : Panic :=
  ⟨some ("a semaphore may not have more than MAX_PERMITS permits (" ++ toString maxPermits ++ ")")⟩

namespace Plan

variable {σ ν : Type}

/-- The expected names that are not registered, in their order and as often as they are expected. -/
def missing (plan : Plan σ ν) : List String :=
  plan.expected.filter fun name => !plan.registry.contains name

def check (plan : Plan σ ν) : Except BuildError Unit :=
  match plan.setup.config.validate with
  | .error error => .error error
  | .ok () => if plan.missing.isEmpty then .ok () else .error (.missingTaskTypes plan.missing)

def breakdown? (config : ConsumerConfig) : Option Panic :=
  if maxPermits < (config.maxConcurrency.map UInt64.toNat).getD 0 then some tooManyPermits
  else if Pool.canHold config.payloadPoolCapacity then none
  else some Pool.tooMuchStorage

def build (plan : Plan σ ν) (broker : Broker) (shared : σ) : Built σ ν :=
  match plan.check with
  | .error error => .refused error
  | .ok () =>
      match breakdown? plan.setup.config with
      | some cause => .broken cause
      | none => .ready (State.start plan.setup plan.registry broker shared)

end Plan

end TaskQueue.Consumer
