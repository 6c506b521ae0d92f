import TaskQueue.Proofs.Consumer.Effects

/-!
Steps of tasks are moves. Each function that such a step calls has one lemma: it makes a move of the
list and leaves the system that `State.afterTask` says. What a step changes and what it leaves alone
is read off that, once.
-/

namespace TaskQueue.Consumer

variable {σ ν : Type} {setup : Setup σ} {system after middle : State σ ν} {index : Nat}

/-- A task goes from one phase to the next, and nothing else happens than what comes of that. -/
structure TaskStep (setup : Setup σ) (system after : State σ ν) (index : Nat) (delivery : Delivery)
    (queue : String) (phase : TaskPhase σ ν) (deed : Option (Deed σ ν)) (next : TaskPhase σ ν) :
    Prop where
  move : TaskMove setup system delivery queue phase deed next
  whole : ∃ callers trace, after = system.afterTask setup index phase next deed callers trace
  callers : Released system after

namespace State

theorem returnPermit_eq (system : State σ ν) :
    system.returnPermit = { system with
      permits := system.returnPermit.permits
      loops := system.returnPermit.loops } := by
  unfold returnPermit
  split <;> rfl

theorem returnPermit_loops (system : State σ ν) :
    system.returnPermit.loops = system.loops ∨
      ∃ first, system.returnPermit.loops = system.loops.modify first Loop.grant := by
  unfold returnPermit
  split
  · exact .inl rfl
  · exact .inl rfl
  · exact .inr ⟨_, rfl⟩

end State

theorem TaskPhase.permitted_loops (system : State σ ν) (phase : TaskPhase σ ν) :
    (phase.permitted system).loops = system.loops ∨
      ∃ first, (phase.permitted system).loops = system.loops.modify first Loop.grant := by
  cases phase with
  | leaving | escaped _ => exact system.returnPermit_loops
  | _ => exact .inl rfl

namespace TaskStep

variable {delivery : Delivery} {queue : String} {phase next : TaskPhase σ ν}
  {deed : Option (Deed σ ν)} {trace : List (Entry ν)}

theorem of_move (move : TaskMove setup system delivery queue phase deed next)
    (whole : after = system.afterTask setup index phase next deed system.callers trace) :
    TaskStep setup system after index delivery queue phase deed next :=
  ⟨move, ⟨_, _, whole⟩, .inl (whole ▸ rfl)⟩

theorem of_last (move : TaskMove setup system delivery queue phase deed next)
    (whole : middle = system.afterTask setup index phase next deed system.callers trace) :
    TaskStep setup system middle.releaseCallers index delivery queue phase deed next := by
  obtain ⟨callers, same, released⟩ := middle.releaseCallers_eq
  subst whole
  rw [same] at released ⊢
  exact ⟨move, ⟨callers, trace, rfl⟩, released⟩

end TaskStep

section Read

variable {delivery : Delivery} {queue : String} {phase next : TaskPhase σ ν}
  {deed : Option (Deed σ ν)}

theorem TaskStep.tasks (step : TaskStep setup system after index delivery queue phase deed next) :
    after.tasks = system.tasks.modify index fun task => { task with phase := next } := by
  obtain ⟨callers, trace, rfl⟩ := step.whole
  rfl

theorem TaskStep.frame (step : TaskStep setup system after index delivery queue phase deed next) :
    TaskFrame system after deed := by
  have queues := step.callers.queues
  obtain ⟨callers, trace, rfl⟩ := step.whole
  exact ⟨rfl, rfl, rfl, phase.permitted_loops system, queues, rfl⟩

theorem TaskStep.effect (step : TaskStep setup system after index delivery queue phase deed next) :
    TaskEffect setup system after phase := by
  have released := step.callers
  obtain ⟨callers, trace, rfl⟩ := step.whole
  exact ⟨rfl, rfl, rfl, rfl, released, rfl⟩

end Read

namespace State

variable {delivery : Delivery} {queue : String} {puller : Nat} {item : Item}
  {deadline : Option Deadline}

theorem timeOut_eq_some (stepped : system.timeOut index item deadline = some after) :
    ∃ moment limit, deadline = some ⟨moment, limit⟩ ∧ moment ≤ system.now ∧
      after = system.setTask index (.ended item (.error (.handlerTimeout limit))) := by
  unfold timeOut at stepped
  split at stepped
  · simp at stepped
  · rename_i moment limit
    split at stepped
    · rename_i due
      simp only [Option.some.injEq] at stepped
      exact ⟨moment, limit, rfl, due, stepped.symm⟩
    · simp at stepped

theorem stepWork_step {work : Work σ ν}
    (stepped : system.stepWork index queue item deadline work = some after) :
    ∃ next, TaskStep setup system after index delivery queue (.running item work deadline)
      ((system.answer? deadline work).map (.answered system.now)) next := by
  cases work with
  | sleep milliseconds rest =>
      simp only [stepWork] at stepped
      split at stepped <;> obtain rfl := Option.some.inj stepped
      · rename_i none
        subst none
        exact ⟨_, .of_move (.work (.sleep rest)) rfl⟩
      · exact ⟨_, .of_move .sleep rfl⟩
  | awaitCancel rest =>
      simp only [stepWork] at stepped
      split at stepped
      · rename_i cancelled
        obtain rfl := Option.some.inj stepped
        simp only [answer?, cancelled, if_true, Option.map_none]
        exact ⟨_, .of_move (.work (.awaitCancel rest cancelled)) rfl⟩
      · rename_i notCancelled
        obtain ⟨moment, limit, rfl, due, rfl⟩ := timeOut_eq_some stepped
        simp only [answer?, notCancelled, Bool.false_eq_true, if_false, Option.map_some]
        exact ⟨_, .of_move (.overrunWaiting (Bool.eq_false_iff.mpr notCancelled) due) rfl⟩
  | finish result =>
      obtain rfl := Option.some.inj stepped
      exact ⟨_, .of_move .finish rfl⟩
  | panic cause =>
      obtain rfl := Option.some.inj stepped
      exact ⟨_, .of_move .panic rfl⟩
  | cancel rest =>
      obtain rfl := Option.some.inj stepped
      exact ⟨_, .of_move (.work (.cancel rest)) rfl⟩
  | look rest =>
      obtain rfl := Option.some.inj stepped
      exact ⟨_, .of_move (.work (.look rest)) rfl⟩
  | access change rest =>
      obtain rfl := Option.some.inj stepped
      exact ⟨_, .of_move (.work (.access change rest)) rfl⟩
  | note left rest =>
      obtain rfl := Option.some.inj stepped
      exact ⟨_, .of_move (.work (.note left rest)) rfl⟩

theorem decode_step (system : State σ ν) (setup : Setup σ) (index : Nat) (delivery : Delivery)
    (queue : String) (item : Item) :
    ∃ next, TaskStep setup system (system.decode setup index queue item) index delivery queue
      (.borrowed item) (panicDeed? (setup.format item.envelope.payload item.lease.param).1)
      next := by
  unfold decode
  cases decoded : setup.format item.envelope.payload item.lease.param with
  | mk outcome param =>
      cases outcome with
      | done value => exact ⟨_, .of_move (.decode decoded) rfl⟩
      | failed error => exact ⟨_, .of_move (.decodeFailed decoded) rfl⟩
      | panicked cause => exact ⟨_, .of_move (.decodeBroke decoded) rfl⟩

theorem terminate_step (system : State σ ν) (setup : Setup σ) (index : Nat) (delivery : Delivery)
    (queue : String) (verdict : Verdict) :
    ∃ next, TaskStep setup system (system.terminate index delivery.tag verdict) index delivery
      queue (.judged verdict)
      (some (.called ⟨delivery.tag, verdict.termination,
        (system.broker.terminate delivery.tag verdict.termination).1⟩)) next := by
  cases ended : (system.broker.terminate delivery.tag verdict.termination).1 with
  | ok value =>
      simp only [terminate, ended]
      exact ⟨_, .of_move (.settle ended) rfl⟩
  | error error =>
      simp only [terminate, ended]
      exact ⟨_, .of_move (.refuse ended) rfl⟩

theorem stepTask_found (stepped : system.stepTask setup index = some after) :
    ∃ task, system.tasks[index]? = some task := by
  unfold stepTask at stepped
  cases found : system.tasks[index]? with
  | none => simp [found] at stepped
  | some task => exact ⟨task, rfl⟩

theorem dispatch_step
    (found : system.tasks[index]? = some ⟨delivery, queue, puller, .checked item⟩) :
    ∃ next, TaskStep setup system (system.dispatch setup index queue item) index delivery queue
      (.checked item) (system.deed? setup index) next := by
  unfold dispatch
  simp only [deed?, found]
  cases looked : system.registry.lookup item.lease.param.taskName with
  | none => exact ⟨_, .of_move (.unhandled looked) rfl⟩
  | some handler => exact ⟨_, .of_move (.invoke looked) rfl⟩

theorem conclude_step (system : State σ ν) (setup : Setup σ) (index : Nat) (delivery : Delivery)
    (queue : String) (item : Item) (result : Except TaskError Unit) :
    ∃ next, TaskStep setup system (system.conclude index queue item result) index delivery queue
      (.ended item result) none next := by
  cases result with
  | ok value => exact ⟨_, .of_move .succeed rfl⟩
  | error error => exact ⟨_, .of_move .fail rfl⟩

theorem stepTask_fresh (found : system.tasks[index]? = some ⟨delivery, queue, puller, .fresh⟩)
    (stepped : system.stepTask setup index = some after) :
    ∃ next, TaskStep setup system after index delivery queue .fresh (system.deed? setup index)
      next := by
  simp only [stepTask, found] at stepped
  simp only [deed?, found]
  cases unpacked : setup.unpack delivery <;> simp only [unpacked] at stepped <;>
    obtain rfl := Option.some.inj stepped
  · exact ⟨_, .of_move (.unpack unpacked) rfl⟩
  · exact ⟨_, .of_move (.unpackFailed unpacked) rfl⟩
  · exact ⟨_, .of_move (.unpackBroke unpacked) rfl⟩

theorem stepTask_decoded
    (found : system.tasks[index]? = some ⟨delivery, queue, puller, .decoded item⟩)
    (stepped : system.stepTask setup index = some after) :
    ∃ next, TaskStep setup system after index delivery queue (.decoded item)
      (system.deed? setup index) next := by
  simp only [stepTask, found] at stepped
  simp only [deed?, found]
  cases checked : setup.validator item.lease.param <;> simp only [checked] at stepped <;>
    obtain rfl := Option.some.inj stepped
  · exact ⟨_, .of_move (.check checked) rfl⟩
  · exact ⟨_, .of_move (.checkFailed checked) rfl⟩
  · exact ⟨_, .of_move (.checkBroke checked) rfl⟩

theorem stepTask_sleeping {wake : Nat} {work : Work σ ν}
    (found : system.tasks[index]? =
      some ⟨delivery, queue, puller, .sleeping item wake work deadline⟩)
    (stepped : system.stepTask setup index = some after) :
    ∃ next, TaskStep setup system after index delivery queue (.sleeping item wake work deadline)
      (system.deed? setup index) next := by
  simp only [stepTask, found] at stepped
  simp only [deed?, found]
  split at stepped
  · rename_i due
    obtain rfl := Option.some.inj stepped
    simp only [due, if_true]
    exact ⟨_, .of_move (.wake due) rfl⟩
  · rename_i notDue
    obtain ⟨moment, limit, rfl, due, rfl⟩ := timeOut_eq_some stepped
    simp only [notDue, if_false, Option.map_some]
    exact ⟨_, .of_move (.overrunSleeping due (Nat.lt_of_not_le notDue)) rfl⟩

theorem recover_span (system : State σ ν) (setup : Setup σ) (message : String)
    (span : Option Log.Span) :
    (system.recover setup message span).1 = (system.recover setup message none).1 := rfl

theorem stepTask_handlerPanicked {cause : Panic}
    (found : system.tasks[index]? = some ⟨delivery, queue, puller, .handlerPanicked item cause⟩)
    (stepped : system.stepTask setup index = some after) :
    ∃ next, TaskStep setup system after index delivery queue (.handlerPanicked item cause)
      (system.deed? setup index) next := by
  simp only [stepTask, found, recover_span] at stepped
  simp only [deed?, found]
  cases seen : (system.recover setup cause.message none).1 <;> simp only [seen] at stepped <;>
    obtain rfl := Option.some.inj stepped
  · exact ⟨_, .of_move (.recoverHandler seen) rfl⟩
  · exact ⟨_, .of_move (.recoverHandlerBroke seen) rfl⟩

theorem stepTask_caught {cause : Panic}
    (found : system.tasks[index]? = some ⟨delivery, queue, puller, .caught cause⟩)
    (stepped : system.stepTask setup index = some after) :
    ∃ next, TaskStep setup system after index delivery queue (.caught cause)
      (system.deed? setup index) next := by
  simp only [stepTask, found] at stepped
  simp only [deed?, found]
  cases seen : (system.recover setup cause.message none).1 <;> simp only [seen] at stepped <;>
    obtain rfl := Option.some.inj stepped
  · exact ⟨_, .of_move (.recover seen) rfl⟩
  · exact ⟨_, .of_move (.recoverBroke seen) rfl⟩

theorem returnPermit_step (system : State σ ν) (setup : Setup σ) (index : Nat)
    (delivery : Delivery) (queue : String) (cause : Panic) :
    TaskStep setup system (system.returnPermit.setTask index (.uncaught cause)) index delivery
      queue (.escaped cause) none (.uncaught cause) := by
  have whole : system.returnPermit.setTask index (.uncaught cause) =
      system.afterTask setup index (.escaped cause) (.uncaught cause) none system.callers
        system.trace := by
    rw [returnPermit_eq]
    rfl
  exact .of_move .escape whole

theorem finishTask_step (system : State σ ν) (setup : Setup σ) (index : Nat) (delivery : Delivery)
    (queue : String) :
    TaskStep setup system (system.returnPermit.finishTask index) index delivery queue .leaving none
      .finished := by
  have whole : system.returnPermit.setTask index .finished =
      system.afterTask setup index .leaving .finished none system.callers system.trace := by
    rw [returnPermit_eq]
    rfl
  exact .of_last .leave whole

theorem stepTask_step {task : Task σ ν} (found : system.tasks[index]? = some task)
    (stepped : system.stepTask setup index = some after) :
    ∃ next, TaskStep setup system after index task.delivery task.queue task.phase
      (system.deed? setup index) next := by
  obtain ⟨delivery, queue, puller, phase⟩ := task
  cases phase
  case fresh => exact stepTask_fresh found stepped
  case decoded item => exact stepTask_decoded found stepped
  case sleeping item wake work deadline => exact stepTask_sleeping found stepped
  case handlerPanicked item cause => exact stepTask_handlerPanicked found stepped
  case caught cause => exact stepTask_caught found stepped
  case running item work deadline =>
    simp only [stepTask, found] at stepped
    simp only [deed?, found]
    exact stepWork_step stepped
  all_goals simp only [stepTask, found, Option.some.injEq, reduceCtorEq] at stepped
  all_goals simp only [deed?, found, ← stepped]
  case unpacked envelope => exact ⟨_, .of_move .borrow rfl⟩
  case borrowed item => exact system.decode_step setup index delivery queue item
  case checked item => simpa only [deed?, found] using dispatch_step found
  case handlerRecovered item cause => exact ⟨_, .of_move .countHandler rfl⟩
  case ended item result => exact system.conclude_step setup index delivery queue item result
  case dropping item => exact ⟨_, .of_move .drop rfl⟩
  case unwinding item cause => exact ⟨_, .of_move .unwind rfl⟩
  case recovered => exact ⟨_, .of_move .count rfl⟩
  case judged verdict => exact system.terminate_step setup index delivery queue verdict
  case settled verdict => exact ⟨_, .of_move .countSettled rfl⟩
  case refused error => exact ⟨_, .of_move .countRefused rfl⟩
  case leaving => exact ⟨_, system.finishTask_step setup index delivery queue⟩
  case escaped cause => exact ⟨_, system.returnPermit_step setup index delivery queue cause⟩
  case uncaught cause => exact ⟨_, .of_last .recoverEscaped rfl⟩

end State

end TaskQueue.Consumer
