import Mathlib.Data.List.Nodup
import TaskQueue.Proofs.Consumer.Labels
import TaskQueue.Proofs.Consumer.Ledger
import TaskQueue.Proofs.Consumer.Passage
import TaskQueue.Proofs.Consumer.Permits
import TaskQueue.Proofs.Payload.RoundTrip
import TaskQueue.Ulid

/-!
From the one who publishes a parameter to the handler that is called with it. The parameter is
written under a new identity, waits under the name of its queue, is pulled by a loop of that queue,
is read from its bytes as it was, passes the check again, and is handed to the handler that is
registered when its task asks for one, which is at the fifth turn of the task.
-/

namespace TaskQueue

theorem Ulid.digit_visible (value : Nat) : Text.isBlank (digit value) = false := by
  have all : ∀ place < 32, Text.isBlank (alphabet.getD place '0') = false := by decide
  exact all (value % 32) (Nat.mod_lt value (by decide))

theorem Ulid.text_visible (number : Nat) :
    ∃ character ∈ (text number).toList, Text.isBlank character = false := by
  refine ⟨digit number, ?_, digit_visible number⟩
  simp [text, digits]

namespace Consumer

variable {σ ν : Type} {setup : Setup σ} {first system before after : State σ ν}
  {course : Course σ ν} {event : Event σ ν} {param : TaskParam} {context : Context}

def Sortable (id : MessageId) : Prop := ∃ instant random, id = Ulid.generate instant random

/-- A step publishes a parameter to a queue, under an identity that sorts by time, and gets a tag
for it. The metadata may be written in any order. -/
inductive Posts (broker : Broker) (param : TaskParam) :
    Event σ ν → String → MessageId → UInt64 → Prop
  | task {queue : String} {ids : Nat → MessageId} : (∀ count, Sortable (ids count)) →
      Posts broker param (.publishTask ids queue param) queue
        (broker.publishTask ids queue param).1 (broker.publishTask ids queue param).2.1
  | ordered {queue : String} {id : MessageId} {order : List (String × String)} : Sortable id →
      order.Perm param.metadata.entries →
      Posts broker param (.publish queue (some id.text) (Payload.encodeOrdered param order)) queue
        id (broker.publish queue (some id.text) (Payload.encodeOrdered param order)).1

theorem Posts.happening {queue : String} {id : MessageId} {tag : UInt64}
    (posts : Posts before.broker param event queue id tag) :
    ∃ order, order.Perm param.metadata.entries ∧
      (∃ character ∈ id.text.toList, Text.isBlank character = false) ∧
      before.happening? setup event =
        some (.published queue ⟨tag, some id.text, Payload.encodeOrdered param order⟩) := by
  have visible {id : MessageId} (sortable : Sortable id) :
      ∃ character ∈ id.text.toList, Text.isBlank character = false := by
    obtain ⟨instant, random, rfl⟩ := sortable
    exact Ulid.text_visible _
  cases posts with
  | task sortable => exact ⟨param.metadata.entries, .refl _, visible (sortable _), rfl⟩
  | ordered sortable perm => exact ⟨_, perm, visible sortable, rfl⟩

theorem Ready.prepare {config : ConsumerConfig} {recovery : Recovery σ} {transport : Transport}
    {delivery : Delivery} {id : MessageId} (ready : Ready delivery id param) (queue : String) :
    (Setup.usual config recovery transport).prepare queue delivery =
      .done (⟨id, queue⟩, param) := by
  have unpacked := byId_eq_done.mpr ready.envelope
  have decoded := json_eq_done.mpr ready.decoded
  have checked := ofMaxBytes_eq_done.mpr ready.valid
  simp only [Setup.prepare, Setup.usual, unpacked, decoded, checked]

/-- How many turns a task has had when it is in a phase before it asks for a handler. -/
def TaskPhase.stage? : TaskPhase σ ν → Option Nat
  | .fresh => some 0
  | .unpacked _ => some 1
  | .borrowed _ => some 2
  | .decoded _ => some 3
  | .checked _ => some 4
  | _ => none

def Task.Heading (context : Context) (param : TaskParam) (turns : List (State σ ν))
    (invocations : List (Invocation σ ν)) (task : Task σ ν) : Prop :=
  match task.phase.stage? with
  | some stage => turns.length = stage ∧ invocations = []
  | none => ∃ asked, turns[4]? = some asked ∧
      invocations = ((asked.registry.lookup param.taskName).map fun handler =>
        ⟨asked.now, handler, context, param⟩).toList

theorem TaskMove.heading {drift : Drift σ} {start world : World σ} {task : Task σ ν}
    {deed : Option (Deed σ ν)} {next : TaskPhase σ ν} {deeds : List (Deed σ ν)}
    {turns : List (State σ ν)} {invocations : List (Invocation σ ν)}
    (prepared : setup.prepare task.queue task.delivery = .done (context, param))
    (passing : task.Passing setup drift start world deeds)
    (move : TaskMove setup before task.delivery task.queue task.phase deed next)
    (heading : task.Heading context param turns invocations) :
    Task.Heading context param (turns ++ [before])
      (invocations ++ (deed.bind Deed.invocation?).toList) { task with phase := next } := by
  obtain ⟨delivery, queue, puller, phase⟩ := task
  simp only [Task.Passing] at passing
  simp only [Task.Heading] at heading ⊢
  cases move with
  | unpack _ | borrow | decode _ | check _ =>
      obtain ⟨count, nothing⟩ := heading
      exact ⟨by simp [count], by simp [nothing]⟩
  | unpackFailed unpacked | unpackBroke unpacked => simp [Setup.prepare, unpacked] at prepared
  | decodeFailed decoded | decodeBroke decoded =>
      obtain ⟨_, _, unpacked, empty⟩ := passing
      rw [empty] at decoded
      simp [Setup.prepare, unpacked, decoded] at prepared
  | checkFailed checked | checkBroke checked =>
      obtain ⟨_, _, unpacked, decoded⟩ := passing
      simp [Setup.prepare, unpacked, decoded, checked] at prepared
  | invoke looked | unhandled looked =>
      obtain ⟨count, nothing⟩ := heading
      have same := passing.2.2.symm.trans prepared
      simp only [Outcome.done.injEq, Prod.mk.injEq] at same
      obtain ⟨rfl, rfl⟩ := same
      refine ⟨before, ?_, ?_⟩
      · rw [List.getElem?_append_right (Nat.le_of_eq count), count]
        rfl
      · rw [looked, nothing]
        rfl
  | _ =>
      obtain ⟨asked, turn, called⟩ := heading
      have bound := (List.getElem?_eq_some_iff.mp turn).1
      refine ⟨asked, ?_, ?_⟩
      · rw [List.getElem?_append_left bound]
        exact turn
      · simpa [Deed.invocation?] using called

theorem Exposed.heading (noTasks : first.tasks = []) (noObjects : first.pool.free = [])
    (exposed : Exposed setup first course system) {place : Nat} {task : Task σ ν}
    (found : system.tasks[place]? = some task)
    (prepared : setup.prepare task.queue task.delivery = .done (context, param)) :
    task.Heading context param (course.turns place) (course.invocations setup place) := by
  have tracked := exposed.forall_tasks
    (fun index turns task => setup.prepare task.queue task.delivery = .done (context, param) →
      task.Heading context param turns
        (turns.filterMap fun system => (system.deed? setup index).bind Deed.invocation?)) noTasks
    (fun _ _ _ _ _ => ⟨rfl, rfl⟩) ?_
  · rw [Course.invocations, Course.deeds_eq_turns, List.filterMap_filterMap]
    exact tracked.known place task found prepared
  · intro earlier before after doer mover next turns reached foundMover _ move known prepared
    obtain ⟨start, world, passing⟩ := reached.passing noTasks noObjects foundMover
    have sameTask : setup.prepare mover.queue mover.delivery = .done (context, param) := prepared
    have heading := move.heading sameTask passing (known sameTask)
    rw [List.filterMap_append]
    cases called : (before.deed? setup doer).bind Deed.invocation? <;>
      simpa [called] using heading

/-- One task has the delivery. It has not asked for a handler yet and can go on, or it has asked,
and called the handler that was registered then, once, with this context and this parameter. -/
structure Brought (setup : Setup σ) (course : Course σ ν) (system : State σ ν)
    (label : String × Delivery) (context : Context) (param : TaskParam) (place : Nat) : Prop where
  task : ∃ task, system.tasks[place]? = some task ∧ task.label = label
  only : ∀ other task, system.tasks[other]? = some task → labelTag task.label = labelTag label →
    other = place
  early : (course.turns place).length < 5 →
    course.invocations setup place = [] ∧ (system.stepTask setup place).isSome = true
  asked : ∀ asked, (course.turns place)[4]? = some asked →
    course.invocations setup place = ((asked.registry.lookup param.taskName).map fun handler =>
      ⟨asked.now, handler, context, param⟩).toList

theorem Brought.called {label : String × Delivery} {place : Nat}
    (brought : Brought setup course system label context param place)
    (ended : ∀ task ∈ system.tasks, task.phase.isFinished = true) :
    ∃ asked, (course.turns place)[4]? = some asked ∧
      ∀ handler, asked.registry.lookup param.taskName = some handler →
        course.invocations setup place = [⟨asked.now, handler, context, param⟩] := by
  obtain ⟨task, found, _⟩ := brought.task
  have finished := ended task (List.mem_of_getElem? found)
  have stuck : system.stepTask setup place = none := by
    obtain ⟨delivery, queue, puller, phase⟩ := task
    cases phase with
    | finished => simp only [State.stepTask, found]
    | _ => cases finished
  by_cases few : (course.turns place).length < 5
  · have steps := (brought.early few).2
    rw [stuck] at steps
    cases steps
  · have turn := List.getElem?_eq_getElem (l := course.turns place) (i := 4) (by omega)
    refine ⟨_, turn, ?_⟩
    intro handler registered
    rw [brought.asked _ turn, registered]
    rfl

def Event.isTask : Event σ ν → Bool
  | .task _ => true
  | _ => false

end Consumer

end TaskQueue
