import TaskQueue.Handler
import TaskQueue.Registry

/-!
A registry whose handlers are called one at a time. A handler that has been looked up stays in hand,
whatever becomes of its registration.
-/

namespace TaskQueue.Registry

structure Session (σ ν : Type) where
  registry : Registry (Handler σ ν)
  held : Option (Handler σ ν)
  shared : σ

/-- What came of a call. Without an outcome the handler waits for ever. -/
structure Answer (ν : Type) where
  outcome : Option (Outcome Unit)
  notes : List ν

namespace Session

variable {σ ν : Type}

def ofState (shared : σ) : Session σ ν := ⟨Registry.empty, none, shared⟩

def register (session : Session σ ν) (name : String) (handler : Handler σ ν) :
    Bool × Session σ ν :=
  let registered := session.registry.register name handler
  (registered.1.isSome, { session with registry := registered.2 })

def unregister (session : Session σ ν) (name : String) : Bool × Session σ ν :=
  let removed := session.registry.unregister name
  (removed.1, { session with registry := removed.2 })

def lookup (session : Session σ ν) (name : String) : Bool × Session σ ν :=
  let held := session.registry.lookup name
  (held.isSome, { session with held })

def call (session : Session σ ν) (handler : Handler σ ν) (context : Context) (cancelled : Bool)
    (param : TaskParam) : Answer ν × Session σ ν :=
  let ran := (handler context param).run cancelled session.shared
  (⟨ran.outcome, ran.notes⟩, { session with shared := ran.state })

def callHeld (session : Session σ ν) (context : Context) (cancelled : Bool) (param : TaskParam) :
    Option (Answer ν) × Session σ ν :=
  match session.held with
  | some handler =>
      let called := session.call handler context cancelled param
      (some called.1, called.2)
  | none => (none, session)

def run (session : Session σ ν) (context : Context) (cancelled : Bool) (param : TaskParam) :
    Answer ν × Session σ ν :=
  match session.registry.lookup param.taskName with
  | some handler => session.call handler context cancelled param
  | none => (⟨some (.failed (.handlerNotFound param.taskName)), []⟩, session)

end Session

end TaskQueue.Registry
