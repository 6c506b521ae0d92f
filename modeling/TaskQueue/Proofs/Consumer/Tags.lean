import TaskQueue.Proofs.Broker.Tags
import TaskQueue.Proofs.Consumer.Custody

/-!
Where the tags go. A tag is in the broker, with a loop or with a task that has not tried to end its
delivery, or it is in the log; and it is in one of these places once. So the log has at most one
entry for each delivery.
-/

namespace TaskQueue.Consumer

variable {σ ν : Type} {setup : Setup σ} {first system before after : State σ ν}
  {course : Course σ ν} {event : Event σ ν}

theorem LoopMove.flow {heed : Bool} {queue : String} {phase next : LoopPhase}
    {pulled : Option Delivery} {broker : Broker}
    (move : LoopMove setup system heed queue phase pulled next broker) :
    Broker.Flow system.broker broker pulled.toList := by
  cases move with
  | opened _ consumed | openFailed _ consumed =>
      have flow := system.broker.flow_consume queue (setup.config.consumerTag queue) .none
      rwa [consumed] at flow
  | leaveStream _ => exact system.broker.flow_dropStream _
  | pull polled | pending polled | ended polled =>
      have same := congrArg
        (fun answer => Broker.Flow system.broker answer.2 answer.1.deliveries) polled
      exact same.mp (system.broker.flow_poll _)
  | _ => exact .of_same rfl rfl

theorem Deed.flow (broker : Broker) (deed : Option (Deed σ ν)) :
    Broker.Flow broker (Deed.broker broker deed) [] := by
  cases deed with
  | none => exact .of_same rfl rfl
  | some deed =>
      cases deed with
      | called call => exact broker.flow_terminate call.tag call.termination
      | _ => exact .of_same rfl rfl

theorem OutsideFrame.flow (frame : OutsideFrame before after event) :
    Broker.Flow before.broker after.broker [] := by
  rw [frame.broker]
  cases event with
  | publish queue messageId body => exact before.broker.flow_publish queue messageId body
  | publishTask ids queue param => exact before.broker.flow_publishTask ids queue param
  | closeQueue queue => exact before.broker.flow_closeQueue queue
  | _ => exact .of_same rfl rfl

def Task.untried? (task : Task σ ν) : Option Delivery :=
  match task.phase with
  | .settled _ | .refused _ | .leaving | .finished => none
  | _ => some task.delivery

/-- The tags of what has left the broker's queues, except where an attempt to end it was refused. -/
def State.tagsOut (system : State σ ν) : List UInt64 :=
  system.broker.log.map Prod.fst ++
    ((system.loops.flatMap fun loop => loop.phase.held) ++
      system.tasks.filterMap Task.untried?).map Delivery.tag

theorem TaskMove.tags {task : Task σ ν} {deed : Option (Deed σ ν)} {next : TaskPhase σ ν}
    (move : TaskMove setup system task.delivery task.queue task.phase deed next) (index : Nat) :
    ∃ gone, task.untried?.toList.map Delivery.tag =
      gone ++ (((deed.map (Happening.task index)).bind Happening.recorded?).toList.map Prod.fst ++
        (Task.untried? { task with phase := next }).toList.map Delivery.tag) := by
  obtain ⟨delivery, queue, puller, phase⟩ := task
  cases move with
  | refuse _ | recoverEscaped => exact ⟨[delivery.tag], rfl⟩
  | _ => exact ⟨[], rfl⟩

theorem LoopPhase.untried_born (phase : LoopPhase) (queue : String) (index : Nat) :
    (phase.born queue index : List (Task σ ν)).filterMap Task.untried? =
      (phase.born queue index : List (Task σ ν)).map Task.delivery := by
  cases phase <;> rfl

theorem tagsOut_task {index : Nat} {task : Task σ ν} {next : TaskPhase σ ν}
    (found : before.tasks[index]? = some task)
    (move : TaskMove setup before task.delivery task.queue task.phase
      (before.deed? setup index) next)
    (moved : after.tasks = before.tasks.modify index fun task => { task with phase := next })
    (frame : TaskFrame before after (before.deed? setup index)) :
    ∃ gone, before.tagsOut.Perm (gone ++ after.tagsOut) := by
  obtain ⟨gone, tags⟩ := move.tags index
  have log := move.log index
  rw [← frame.broker] at log
  have held := frame.flatMap_loops LoopPhase.held fun _ _ => rfl
  have untried := (filterMap_modify_perm (fun task => { task with phase := next })
    Task.untried? found).map Delivery.tag
  rw [← moved] at untried
  -- counted tag by tag, what the task gives up is in the log or lost
  refine ⟨gone, List.perm_iff_count.mpr ?_⟩
  intro tag
  have sameTags := congrArg (List.count tag) tags
  have sameTasks := untried.count_eq tag
  simp only [State.tagsOut, log, held, List.map_append, List.count_append] at sameTags sameTasks ⊢
  omega

theorem tagsOut_loop {puller : Nat} {heed : Bool} {loop : Loop} {pulled : Option Delivery}
    {next : LoopPhase}
    (found : before.loops[puller]? = some loop)
    (move : LoopMove setup before heed loop.queue loop.phase pulled next after.broker)
    (moved : after.loops = before.loops.modify puller fun loop => { loop with phase := next })
    (born : after.tasks = before.tasks ++ loop.phase.born loop.queue puller) :
    (pulled.toList.map Delivery.tag ++ before.tagsOut).Perm after.tagsOut := by
  have custody := congrArg (List.map Delivery.tag) (move.custody puller)
  have held := (flatMap_modify_perm (fun loop => { loop with phase := next })
    (fun loop => loop.phase.held) found).map Delivery.tag
  rw [← moved] at held
  refine List.perm_iff_count.mpr ?_
  intro tag
  have sameTags := congrArg (List.count tag) custody
  have sameLoops := held.count_eq tag
  simp only [State.tagsOut, move.log, born, List.filterMap_append, LoopPhase.untried_born,
    List.map_append, List.count_append] at sameTags sameLoops ⊢
  omega

theorem tagsOut_outside (frame : OutsideFrame before after event) :
    after.tagsOut = before.tagsOut := by
  have held := frame.flatMap_loops LoopPhase.held rfl
  rw [State.tagsOut, State.tagsOut, frame.log, frame.tasks, held]

def State.tags (system : State σ ν) : List UInt64 :=
  system.broker.stock.map Delivery.tag ++ system.tagsOut

theorem State.step_flow (stepped : before.step setup event = some after) :
    ∃ taken gone, Broker.Flow before.broker after.broker taken ∧
      (taken.map Delivery.tag ++ before.tagsOut).Perm (gone ++ after.tagsOut) := by
  cases State.step_moved stepped with
  | task found move moved frame =>
      obtain ⟨gone, same⟩ := tagsOut_task found move moved frame
      refine ⟨[], gone, ?_, same⟩
      rw [frame.broker]
      exact Deed.flow before.broker _
  | loop found pull move moved born frame =>
      exact ⟨_, [], move.flow, tagsOut_loop found move moved born⟩
  | outside _ _ frame =>
      refine ⟨[], [], frame.flow, ?_⟩
      rw [tagsOut_outside frame]
      exact .refl _

theorem Run.published (run : Run setup first course system) :
    system.broker.published ≤ first.broker.published + course.length := by
  induction run with
  | start => exact Nat.le_refl _
  | step _ stepped ih =>
      obtain ⟨_, _, flow, _⟩ := State.step_flow stepped
      have next := flow.published.2
      rw [List.length_append, List.length_singleton]
      omega

theorem Run.issued {registry : Registry (Handler σ ν)} {broker : Broker} {shared : σ}
    (made : broker.Made) (unlogged : broker.log = [])
    (few : broker.published + course.length < UInt64.size)
    (run : Run setup (State.start setup registry broker shared) course system) :
    Broker.Issued system.broker.published system.tags := by
  induction run with
  | start =>
      have issued := made.issued few
      simpa [State.tags, State.tagsOut, State.start, unlogged] using issued
  | step run stepped ih =>
      rename_i course before after event
      rw [List.length_append, List.length_singleton] at few
      have issued := ih (by omega)
      obtain ⟨taken, gone, flow, same⟩ := State.step_flow stepped
      have bounded : after.broker.published < UInt64.size := by
        have published := run.published
        have next := flow.published.2
        simp only [State.start] at published
        omega
      refine (flow.issued before.tagsOut bounded issued).kept gone ?_ (Nat.le_refl _)
      calc (after.broker.stock.map Delivery.tag ++
            (taken.map Delivery.tag ++ before.tagsOut)).Perm
            (after.broker.stock.map Delivery.tag ++ (gone ++ after.tagsOut)) :=
              same.append_left _
        _ |>.Perm (gone ++ (after.broker.stock.map Delivery.tag ++ after.tagsOut)) := by
              simp only [← List.append_assoc]
              exact List.perm_append_comm.append_right _

end TaskQueue.Consumer
