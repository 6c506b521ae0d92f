import TaskQueue.Handler.Typed
import TaskQueue.Registry

/-!
A registry in many hands. Who registers, removes, looks up, asks, lists or counts does so at one
stroke. Who runs a task looks up its handler, then calls what was found, and then goes on with the
work step by step, and anything may be done by others in between. What is done is put down with its
answer.
-/

namespace TaskQueue

structure Sight (σ : Type) where
  cancelled : Bool
  shared : σ

namespace Work

variable {σ ν : Type}

structure Stride (σ ν : Type) where
  rest : Work σ ν
  sight : Sight σ
  notes : List ν

def outcome? : Work σ ν → Option (Outcome Unit)
  | .finish (.ok ()) => some (.done ())
  | .finish (.error error) => some (.failed error)
  | .panic cause => some (.panicked cause)
  | _ => none

/-- One step of work. At its end it takes none, nor while it waits for a cancellation. -/
def advance (sight : Sight σ) : Work σ ν → Option (Stride σ ν)
  | .finish _ | .panic _ => none
  | .sleep _ next => some ⟨next, sight, []⟩
  | .awaitCancel next => if sight.cancelled then some ⟨next, sight, []⟩ else none
  | .cancel next => some ⟨next, { sight with cancelled := true }, []⟩
  | .look next => some ⟨next sight.cancelled, sight, []⟩
  | .access change next =>
      some ⟨next sight.shared, { sight with shared := change sight.shared }, []⟩
  | .note left next => some ⟨next, sight, [left]⟩

end Work

namespace Registry

inductive DispatchPhase (σ ν : Type)
  | seeking
  | sought (found : Option (Handler σ ν))
  | working (work : Work σ ν)
  | returned (outcome : Outcome Unit)

structure Dispatch (σ ν : Type) where
  context : Context
  param : TaskParam
  cancelled : Bool
  notes : List ν
  phase : DispatchPhase σ ν

inductive Deed (σ ν : Type)
  | began (context : Context) (param : TaskParam)
  | sought (found : Option (Handler σ ν))
  | called (handler : Handler σ ν) (context : Context) (param : TaskParam)
  | worked (sight : Sight σ)
  | returned (outcome : Outcome Unit) (notes : List ν)

structure Act (σ ν : Type) where
  deed : Deed σ ν
  next : Dispatch σ ν
  shared : σ

def Dispatch.step {σ ν : Type} (registry : Registry (Handler σ ν)) (shared : σ)
    (dispatch : Dispatch σ ν) : Option (Act σ ν) :=
  match dispatch.phase with
  | .seeking =>
      let found := registry.lookup dispatch.param.taskName
      some ⟨.sought found, { dispatch with phase := .sought found }, shared⟩
  | .sought none =>
      let outcome := .failed (.handlerNotFound dispatch.param.taskName)
      some ⟨.returned outcome dispatch.notes, { dispatch with phase := .returned outcome }, shared⟩
  | .sought (some handler) =>
      let work := handler dispatch.context dispatch.param
      some ⟨.called handler dispatch.context dispatch.param,
        { dispatch with phase := .working work }, shared⟩
  | .working work =>
      match work.outcome? with
      | some outcome =>
          some ⟨.returned outcome dispatch.notes, { dispatch with phase := .returned outcome },
            shared⟩
      | none =>
          let sight := ⟨dispatch.cancelled, shared⟩
          (work.advance sight).map fun stride =>
            ⟨.worked sight,
              { dispatch with
                cancelled := stride.sight.cancelled
                notes := dispatch.notes ++ stride.notes
                phase := .working stride.rest },
              stride.sight.shared⟩
  | .returned _ => none

inductive Entry (σ ν : Type)
  | registered (name : String) (handler : Handler σ ν) (displaced : Option (Handler σ ν))
  | unregistered (name : String) (removed : Bool)
  | lookedUp (name : String) (found : Option (Handler σ ν))
  | asked (name : String) (present : Bool)
  | listed (names : List String)
  | counted (number : Nat)
  | dispatch (index : Nat) (deed : Deed σ ν)

structure Traffic (σ ν : Type) where
  registry : Registry (Handler σ ν)
  shared : σ
  dispatches : List (Dispatch σ ν)
  history : List (Entry σ ν)

namespace Traffic

variable {α σ ν : Type}

def ofState (shared : σ) : Traffic σ ν := ⟨Registry.empty, shared, [], []⟩

def record (traffic : Traffic σ ν) (entry : Entry σ ν) : Traffic σ ν :=
  { traffic with history := traffic.history ++ [entry] }

def register (traffic : Traffic σ ν) (name : String) (handler : Handler σ ν) : Traffic σ ν :=
  let registered := traffic.registry.register name handler
  { traffic with registry := registered.2 }.record (.registered name handler registered.1)

def registerTyped (traffic : Traffic σ ν) (type : TaskType α)
    (handle : Context → α → Work σ ν) : Traffic σ ν :=
  traffic.register type.name (type.handler handle)

def unregister (traffic : Traffic σ ν) (name : String) : Traffic σ ν :=
  let removed := traffic.registry.unregister name
  { traffic with registry := removed.2 }.record (.unregistered name removed.1)

def lookup (traffic : Traffic σ ν) (name : String) : Traffic σ ν :=
  traffic.record (.lookedUp name (traffic.registry.lookup name))

def contains (traffic : Traffic σ ν) (name : String) : Traffic σ ν :=
  traffic.record (.asked name (traffic.registry.contains name))

def names (traffic : Traffic σ ν) : Traffic σ ν := traffic.record (.listed traffic.registry.names)

def size (traffic : Traffic σ ν) : Traffic σ ν := traffic.record (.counted traffic.registry.size)

def run (traffic : Traffic σ ν) (context : Context) (cancelled : Bool) (param : TaskParam) :
    Traffic σ ν :=
  let dispatch := Dispatch.mk context param cancelled [] .seeking
  { traffic with dispatches := traffic.dispatches ++ [dispatch] }.record
    (.dispatch traffic.dispatches.length (.began context param))

def enact (traffic : Traffic σ ν) (index : Nat) (next : Dispatch σ ν) (deed : Deed σ ν) :
    Traffic σ ν :=
  { traffic with dispatches := traffic.dispatches.set index next }.record (.dispatch index deed)

def proceed (traffic : Traffic σ ν) (index : Nat) : Option (Traffic σ ν) :=
  traffic.dispatches[index]?.bind fun dispatch =>
    (dispatch.step traffic.registry traffic.shared).map fun act =>
      { traffic with shared := act.shared }.enact index act.next act.deed

def cancel (traffic : Traffic σ ν) (index : Nat) : Traffic σ ν :=
  { traffic with dispatches := traffic.dispatches.modify index fun dispatch =>
      { dispatch with cancelled := true } }

/-- Whoever may come next. A task may be cancelled from outside, and what the handlers share may
change. -/
inductive Moves (traffic : Traffic σ ν) : Traffic σ ν → Prop
  | register (name : String) (handler : Handler σ ν) : Moves traffic (traffic.register name handler)
  | registerTyped {α : Type} (type : TaskType α) (handle : Context → α → Work σ ν) :
      Moves traffic (traffic.registerTyped type handle)
  | unregister (name : String) : Moves traffic (traffic.unregister name)
  | lookup (name : String) : Moves traffic (traffic.lookup name)
  | contains (name : String) : Moves traffic (traffic.contains name)
  | names : Moves traffic traffic.names
  | size : Moves traffic traffic.size
  | run (context : Context) (cancelled : Bool) (param : TaskParam) :
      Moves traffic (traffic.run context cancelled param)
  | proceed {after : Traffic σ ν} (index : Nat) : traffic.proceed index = some after →
      Moves traffic after
  | cancel (index : Nat) : Moves traffic (traffic.cancel index)
  | share (shared : σ) : Moves traffic { traffic with shared }

end Traffic

end Registry

end TaskQueue
