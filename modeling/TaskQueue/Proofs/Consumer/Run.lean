import TaskQueue.Consumer.Step
import TaskQueue.Proofs.Trail

/-!
Runs of a consumer, and what can be seen of them. A run is the list of its steps, each with the
system before it; what happened in it is read off the steps one by one. What a task does is a list
of deeds of its own, so that a statement about one delivery does not depend on how the tasks take
turns.
-/

namespace TaskQueue.Consumer

variable {σ ν : Type}

def Setup.usual (config : ConsumerConfig) (recovery : Recovery σ) (transport : Transport) :
    Setup σ where
  config := config
  unpack := Unpacking.byId
  format := Payload.Format.json
  validator := Validator.ofMaxBytes Validator.defaultMaxBytes
  recovery := recovery
  transport := transport

def plainSetup : Setup Unit := Setup.usual .default Recovery.report Transport.prompt

structure Invocation (σ ν : Type) where
  moment : Nat
  handler : Handler σ ν
  context : Context
  param : TaskParam

inductive Answer
  | returned (result : Except TaskError Unit)
  | panicked (cause : Panic)
  | overran (limit : Duration)

structure Call where
  tag : UInt64
  termination : Termination
  result : Except TransportError Unit

/-- What a task does that others can see. -/
inductive Deed (σ ν : Type)
  /-- A stage before the handler broke down. -/
  | broke (cause : Panic)
  | unhandled (name : String)
  | invoked (invocation : Invocation σ ν)
  | answered (moment : Nat) (answer : Answer)
  | recovered (message : String) (further : Option Panic)
  | called (call : Call)

inductive Happening (σ ν : Type)
  | published (queue : String) (delivery : Delivery)
  | pulled (loop : Nat) (queue : String) (delivery : Delivery)
  | task (index : Nat) (deed : Deed σ ν)

namespace State

def panicDeed? {α : Type} : Outcome α → Option (Deed σ ν)
  | .panicked cause => some (.broke cause)
  | _ => none

/-- What comes of the next step of a handler's work, if it is the last. -/
def answer? (system : State σ ν) (deadline : Option Deadline) : Work σ ν → Option Answer
  | .finish result => some (.returned result)
  | .panic cause => some (.panicked cause)
  | .awaitCancel _ =>
      if system.cancelled then none else deadline.map fun deadline => .overran deadline.limit
  | _ => none

def deed? (system : State σ ν) (setup : Setup σ) (index : Nat) : Option (Deed σ ν) :=
  match system.tasks[index]? with
  | none => none
  | some ⟨delivery, queue, _, phase⟩ =>
      match phase with
      | .fresh => panicDeed? (setup.unpack delivery)
      | .borrowed item => panicDeed? (setup.format item.envelope.payload item.lease.param).1
      | .decoded item => panicDeed? (setup.validator item.lease.param)
      | .checked item =>
          match system.registry.lookup item.lease.param.taskName with
          | none => some (.unhandled item.lease.param.taskName)
          | some handler =>
              some (.invoked
                ⟨system.now, handler, ⟨item.envelope.id, queue⟩, item.lease.param⟩)
      | .running _ work deadline => (system.answer? deadline work).map (.answered system.now)
      | .sleeping _ wake _ deadline =>
          if wake ≤ system.now then none
          else deadline.map fun deadline => .answered system.now (.overran deadline.limit)
      | .handlerPanicked _ cause | .caught cause | .uncaught cause =>
          some (.recovered cause.message (system.recover setup cause.message none).1)
      | .judged verdict =>
          some (.called ⟨delivery.tag, verdict.termination,
            (system.broker.terminate delivery.tag verdict.termination).1⟩)
      | _ => none

def pull? (system : State σ ν) (index : Nat) (heed : Bool) : Option (String × Delivery) :=
  match system.loops[index]? with
  | some ⟨queue, .reading stream⟩ =>
      if system.cancelled && heed then none
      else
        match (system.broker.poll stream).1 with
        | .next delivery => some (queue, delivery)
        | _ => none
  | _ => none

def happening? (system : State σ ν) (setup : Setup σ) : Event σ ν → Option (Happening σ ν)
  | .task index => (system.deed? setup index).map (.task index)
  | .loop index heed => (system.pull? index heed).map fun pulled => .pulled index pulled.1 pulled.2
  | .publish queue messageId body =>
      some (.published queue ⟨(system.broker.publish queue messageId body).1, messageId, body⟩)
  | .publishTask ids queue param =>
      let published := system.broker.publishTask ids queue param
      some (.published queue ⟨published.2.1, some published.1.text, Payload.encode param⟩)
  | _ => none

end State

/-- The steps of a run, each with the system before it. -/
abbrev Course (σ ν : Type) := List (State σ ν × Event σ ν)

abbrev Run (setup : Setup σ) (first : State σ ν) : Course σ ν → State σ ν → Prop :=
  Trail (fun system event => system.step setup event) first

def State.follow (setup : Setup σ) (system : State σ ν) (events : List (Event σ ν)) :
    Option (Course σ ν × State σ ν) :=
  TaskQueue.follow (fun system event => system.step setup event) system events

namespace Run

variable {setup : Setup σ} {first before after : State σ ν} {course : Course σ ν}
  {event : Event σ ν}

theorem start : Run setup first [] first := Trail.start

theorem step (run : Run setup first course before)
    (stepped : before.step setup event = some after) :
    Run setup first (course ++ [(before, event)]) after :=
  Trail.step run stepped

theorem follow {events : List (Event σ ν)} {more : Course σ ν}
    (run : Run setup first course before)
    (followed : before.follow setup events = some (more, after)) :
    Run setup first (course ++ more) after :=
  Trail.follow run followed

@[induction_eliminator]
theorem induct {motive : ∀ (course : Course σ ν) (system : State σ ν),
      Run setup first course system → Prop}
    (start : motive [] first .start)
    (step : ∀ {course before after event} (run : Run setup first course before)
      (stepped : before.step setup event = some after), motive course before run →
      motive (course ++ [(before, event)]) after (run.step stepped))
    {course : Course σ ν} {system : State σ ν} (run : Run setup first course system) :
    motive course system run := by
  induction (run : Trail _ first course system) with
  | start => exact start
  | step run stepped ih => exact step run stepped ih

end Run

namespace Deed

def call? : Deed σ ν → Option Call
  | .called call => some call
  | _ => none

def invocation? : Deed σ ν → Option (Invocation σ ν)
  | .invoked invocation => some invocation
  | _ => none

def answer? : Deed σ ν → Option (Nat × Answer)
  | .answered moment answer => some (moment, answer)
  | _ => none

end Deed

namespace Happening

def deedOf? (index : Nat) : Happening σ ν → Option (Deed σ ν)
  | .task doer deed => if doer = index then some deed else none
  | _ => none

def pulledBy? (index : Nat) : Happening σ ν → Option (String × Delivery)
  | .pulled loop queue delivery => if loop = index then some (queue, delivery) else none
  | _ => none

def pulledFrom? (queue : String) : Happening σ ν → Option Delivery
  | .pulled _ source delivery => if source = queue then some delivery else none
  | _ => none

def publishedTo? (queue : String) : Happening σ ν → Option Delivery
  | .published target delivery => if target = queue then some delivery else none
  | _ => none

def recorded? : Happening σ ν → Option (UInt64 × Termination)
  | .task _ (.called ⟨tag, termination, .ok ()⟩) => some (tag, termination)
  | _ => none

end Happening

namespace Course

def history (setup : Setup σ) (course : Course σ ν) : List (Happening σ ν) :=
  course.filterMap fun moment => moment.1.happening? setup moment.2

def gather {α : Type} (pick : Happening σ ν → Option α) (setup : Setup σ)
    (course : Course σ ν) : List α := (course.history setup).filterMap pick

def deeds (setup : Setup σ) (course : Course σ ν) (index : Nat) : List (Deed σ ν) :=
  course.gather (Happening.deedOf? index) setup

def pulledBy (setup : Setup σ) (course : Course σ ν) (index : Nat) : List (String × Delivery) :=
  course.gather (Happening.pulledBy? index) setup

def pulledFrom (setup : Setup σ) (course : Course σ ν) (queue : String) : List Delivery :=
  course.gather (Happening.pulledFrom? queue) setup

def publishedTo (setup : Setup σ) (course : Course σ ν) (queue : String) : List Delivery :=
  course.gather (Happening.publishedTo? queue) setup

def recorded (setup : Setup σ) (course : Course σ ν) : List (UInt64 × Termination) :=
  course.gather Happening.recorded? setup

def calls (setup : Setup σ) (course : Course σ ν) (index : Nat) : List Call :=
  (course.deeds setup index).filterMap Deed.call?

def invocations (setup : Setup σ) (course : Course σ ν) (index : Nat) :
    List (Invocation σ ν) :=
  (course.deeds setup index).filterMap Deed.invocation?

def answers (setup : Setup σ) (course : Course σ ν) (index : Nat) : List (Nat × Answer) :=
  (course.deeds setup index).filterMap Deed.answer?

/-- The systems in which a task took its steps, in order. -/
def turns (course : Course σ ν) (index : Nat) : List (State σ ν) :=
  course.filterMap fun moment =>
    match moment.2 with
    | .task doer => if doer = index then some moment.1 else none
    | _ => none

variable {setup : Setup σ} {course : Course σ ν} {system : State σ ν} {event : Event σ ν}

theorem gather_append {α : Type} (pick : Happening σ ν → Option α) :
    (course ++ [(system, event)]).gather pick setup =
      course.gather pick setup ++ ((system.happening? setup event).bind pick).toList := by
  unfold gather history
  rw [List.filterMap_append, List.filterMap_append]
  congr 1
  cases happened : system.happening? setup event with
  | none => simp [happened]
  | some happening => cases picked : pick happening <;> simp [happened, picked]

theorem gather_append_none {α : Type} {pick : Happening σ ν → Option α}
    (unseen : (system.happening? setup event).bind pick = none) :
    (course ++ [(system, event)]).gather pick setup = course.gather pick setup := by
  rw [gather_append, unseen, Option.toList_none, List.append_nil]

theorem mem_gather {α : Type} {pick : Happening σ ν → Option α} {value : α} :
    value ∈ course.gather pick setup ↔ ∃ moment ∈ course,
      ∃ happening, moment.1.happening? setup moment.2 = some happening ∧
        pick happening = some value := by
  simp only [gather, history, List.mem_filterMap]
  constructor
  · rintro ⟨happening, ⟨moment, taken, happened⟩, picked⟩
    exact ⟨moment, taken, happening, happened, picked⟩
  · rintro ⟨moment, taken, happening, happened, picked⟩
    exact ⟨happening, ⟨moment, taken, happened⟩, picked⟩

theorem turns_task {index : Nat} :
    (course ++ [(system, Event.task index)]).turns index = course.turns index ++ [system] := by
  simp [turns]

theorem turns_else {index : Nat} (other : event ≠ .task index) :
    (course ++ [(system, event)]).turns index = course.turns index := by
  cases event with
  | task doer =>
      have notSame : doer ≠ index := fun same => other (same ▸ rfl)
      simp [turns, notSame]
  | _ => simp [turns]

theorem turns_loop {index loop : Nat} {heed : Bool} :
    (course ++ [(system, Event.loop loop heed)]).turns index = course.turns index :=
  turns_else nofun

theorem deeds_eq_turns (setup : Setup σ) (course : Course σ ν) (index : Nat) :
    course.deeds setup index = (course.turns index).filterMap (·.deed? setup index) := by
  unfold deeds gather history turns
  rw [List.filterMap_filterMap, List.filterMap_filterMap]
  congr 1
  funext ⟨system, event⟩
  cases event with
  | task doer =>
      by_cases same : doer = index
      · subst doer
        cases done : system.deed? setup index <;>
          simp [State.happening?, done, Happening.deedOf?]
      · cases done : system.deed? setup doer <;>
          simp [State.happening?, done, Happening.deedOf?, same]
  | loop puller heed =>
      cases pulled : system.pull? puller heed <;>
        simp [State.happening?, pulled, Happening.deedOf?]
  | _ => rfl

theorem pulledBy_loop {index : Nat} {heed : Bool} :
    (course ++ [(system, Event.loop index heed)]).pulledBy setup index =
      course.pulledBy setup index ++ (system.pull? index heed).toList := by
  unfold pulledBy
  rw [gather_append]
  cases pulled : system.pull? index heed <;>
    simp [State.happening?, pulled, Happening.pulledBy?]

theorem pulledBy_else {index : Nat} (other : ∀ heed, event ≠ .loop index heed) :
    (course ++ [(system, event)]).pulledBy setup index = course.pulledBy setup index := by
  apply gather_append_none
  cases event with
  | task doer =>
      cases done : system.deed? setup doer <;>
        simp [State.happening?, done, Happening.pulledBy?]
  | loop puller heed =>
      have notSame : puller ≠ index := fun same => other heed (same ▸ rfl)
      cases pulled : system.pull? puller heed <;>
        simp [State.happening?, pulled, Happening.pulledBy?, notSame]
  | _ => rfl

theorem pulledBy_task {index task : Nat} :
    (course ++ [(system, Event.task task)]).pulledBy setup index =
      course.pulledBy setup index := pulledBy_else fun _ => nofun

end Course

end TaskQueue.Consumer
