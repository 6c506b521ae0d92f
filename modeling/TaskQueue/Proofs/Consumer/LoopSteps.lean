import TaskQueue.Proofs.Consumer.Effects

/-!
Steps of loops are moves. Each function that such a step calls has one lemma: it makes a move of the
list and leaves the system that `State.afterLoop` says, which tells what it changes and what it
leaves alone.
-/

namespace TaskQueue.Consumer

variable {σ ν : Type} {setup : Setup σ} {system after middle : State σ ν} {index : Nat}

/-- A loop goes from one phase to the next, and nothing else happens than what comes of that. -/
structure LoopStep (setup : Setup σ) (system after : State σ ν) (index : Nat) (heed : Bool)
    (queue : String) (phase : LoopPhase) (pulled : Option Delivery) (next : LoopPhase) :
    Prop where
  move : LoopMove setup system heed queue phase pulled next after.broker
  whole : ∃ broker callers trace,
    after = system.afterLoop setup index queue phase next broker callers trace
  callers : Released system after

namespace LoopStep

variable {heed : Bool} {queue : String} {phase next : LoopPhase} {pulled : Option Delivery}
  {broker : Broker} {trace : List (Entry ν)}

theorem of_move (move : LoopMove setup system heed queue phase pulled next broker)
    (whole : after = system.afterLoop setup index queue phase next broker system.callers trace) :
    LoopStep setup system after index heed queue phase pulled next := by
  subst whole
  exact ⟨move, ⟨_, _, _, rfl⟩, .inl rfl⟩

theorem of_last (move : LoopMove setup system heed queue phase pulled next broker)
    (whole : middle = system.afterLoop setup index queue phase next broker system.callers trace) :
    LoopStep setup system middle.releaseCallers index heed queue phase pulled next := by
  obtain ⟨callers, same, released⟩ := middle.releaseCallers_eq
  subst whole
  rw [same] at released ⊢
  exact ⟨move, ⟨broker, callers, trace, rfl⟩, released⟩

end LoopStep

section Read

variable {heed : Bool} {queue : String} {phase next : LoopPhase} {pulled : Option Delivery}

theorem LoopStep.loops (step : LoopStep setup system after index heed queue phase pulled next) :
    after.loops = system.loops.modify index fun loop => { loop with phase := next } := by
  obtain ⟨broker, callers, trace, rfl⟩ := step.whole
  rfl

theorem LoopStep.tasks (step : LoopStep setup system after index heed queue phase pulled next) :
    after.tasks = system.tasks ++ phase.born queue index := by
  obtain ⟨broker, callers, trace, rfl⟩ := step.whole
  exact phase.tasksAfter_eq queue index system.tasks

theorem LoopStep.frame (step : LoopStep setup system after index heed queue phase pulled next) :
    LoopFrame system after := by
  have queues := step.callers.queues
  obtain ⟨broker, callers, trace, rfl⟩ := step.whole
  exact ⟨rfl, rfl, queues, rfl⟩

theorem LoopStep.world (step : LoopStep setup system after index heed queue phase pulled next) :
    after.world = phase.worldAfter setup system.world := by
  obtain ⟨broker, callers, trace, rfl⟩ := step.whole
  cases phase <;> rfl

theorem LoopStep.effect (step : LoopStep setup system after index heed queue phase pulled next)
    (permits : (∃ stream delivery, phase = .counted stream delivery ∧
        after = system.requestPermit index stream delivery) ∨
      phase.asks = false ∧ after.permits = system.permits) :
    LoopEffect setup system after index phase next := by
  have released := step.callers
  have world := step.world
  obtain ⟨broker, callers, trace, rfl⟩ := step.whole
  exact ⟨rfl, rfl, permits, released, world⟩

theorem LoopMove.pull? {broker : Broker}
    (move : LoopMove setup system heed queue phase pulled next broker)
    (found : system.loops[index]? = some ⟨queue, phase⟩) :
    system.pull? index heed = pulled.map (queue, ·) := by
  cases move with
  | leaveStream cancelled heeds => simp [State.pull?, found, cancelled, heeds]
  | pull polled unheeded | pending polled unheeded | ended polled unheeded =>
      simp [State.pull?, found, unheeded, polled]
  | _ => simp [State.pull?, found]

end Read

namespace State

theorem pause_eq (system : State σ ν) (setup : Setup σ) (index : Nat) :
    system.pause setup index = system.setLoop index (.paused setup system.now) := by
  unfold pause LoopPhase.paused
  split <;> rfl

variable {queue : String} {heed : Bool} {stream : Nat} {delivery : Delivery}

theorem modify_phase_same {loops : List Loop} {phase : LoopPhase}
    (found : loops[index]? = some ⟨queue, phase⟩) :
    loops.modify index (fun loop => { loop with phase }) = loops := by
  apply List.ext_getElem?
  intro other
  rw [List.getElem?_modify]
  by_cases same : index = other
  · subst other
    simp [found]
  · simp [same]

theorem stepLoop_found (stepped : system.stepLoop setup index heed = some after) :
    ∃ loop, system.loops[index]? = some loop := by
  unfold stepLoop at stepped
  cases found : system.loops[index]? with
  | none => simp [found] at stepped
  | some loop => exact ⟨loop, rfl⟩

theorem beginOpening_step (system : State σ ν) (setup : Setup σ) (index : Nat) (heed : Bool)
    (queue : String) (going : system.cancelled = false) :
    ∃ next, LoopStep setup system (system.beginOpening setup index queue) index heed queue .top
      none next := by
  unfold beginOpening
  cases broken : setup.transport.breakdown queue with
  | none => exact ⟨_, .of_move (.begin going broken) rfl⟩
  | some cause => exact ⟨_, .of_move (.crash going broken) rfl⟩

theorem counterTo?_paused (ready : Nat) (setup : Setup σ) (now : Nat) :
    (LoopPhase.opening ready).counterTo? (.paused setup now) = some .streamFailures :=
  LoopPhase.paused_same (LoopPhase.counterTo? (.opening ready)) (fun _ => rfl) setup now

theorem openStream_step (system : State σ ν) (setup : Setup σ) (index : Nat) {ready : Nat}
    (due : ready ≤ system.now) (unheeded : (system.cancelled && heed) = false) :
    ∃ next, LoopStep setup system (system.openStream setup index queue) index heed queue
      (.opening ready) none next := by
  unfold openStream
  cases consumed : system.broker.consume queue (setup.config.consumerTag queue) .none with
  | mk answer broker =>
      cases answer with
      | ok stream => exact ⟨_, .of_move (.opened due consumed unheeded) rfl⟩
      | error error =>
          have whole : ((State.say { system with broker } (Line.openFailed queue error)).count
                .streamFailures).pause setup index =
              system.afterLoop setup index queue (.opening ready) (.paused setup system.now) broker
                system.callers (.line (Line.openFailed queue error) :: system.trace) := by
            rw [pause_eq, afterLoop, counterTo?_paused]
            rfl
          exact ⟨_, .of_move (.openFailed due consumed unheeded) whole⟩

theorem pull_step (found : system.loops[index]? = some ⟨queue, .reading stream⟩)
    (unheeded : (system.cancelled && heed) = false) :
    ∃ pulled next, LoopStep setup system (system.pull setup index queue stream) index heed queue
      (.reading stream) pulled next := by
  unfold pull
  cases polled : system.broker.poll stream with
  | mk news broker =>
      cases news with
      | next delivery => exact ⟨_, _, .of_move (.pull polled unheeded) rfl⟩
      | pending =>
          have whole : { system with broker } = system.afterLoop setup index queue
              (.reading stream) (.reading stream) broker system.callers system.trace := by
            rw [afterLoop, modify_phase_same found]
            rfl
          exact ⟨_, _, .of_move (.pending polled unheeded) whole⟩
      | ended =>
          have whole : (if system.cancelled then
                (State.say { system with broker } (Line.streamEnded queue)).setLoop index .top
              else (State.say { system with broker } (Line.streamEnded queue)).pause setup index) =
              system.afterLoop setup index queue (.reading stream)
                (if system.cancelled then .top else .paused setup system.now) broker
                system.callers (.line (Line.streamEnded queue) :: system.trace) := by
            split
            · rfl
            · rw [pause_eq]
              rfl
          exact ⟨_, _, .of_move (.ended polled unheeded) whole⟩

theorem requestPermit_step (system : State σ ν) (setup : Setup σ) (index : Nat) (heed : Bool)
    (queue : String) (stream : Nat) (delivery : Delivery) :
    ∃ next, LoopStep setup system (system.requestPermit index stream delivery) index heed queue
      (.counted stream delivery) none next := by
  have asked : (∃ permits, system.requestPermit index stream delivery =
        State.setLoop { system with permits } index (.starting stream delivery)) ∨
      ∃ permits, system.requestPermit index stream delivery =
        State.setLoop { system with permits } index (.waiting stream delivery) := by
    unfold requestPermit
    split
    · exact .inl ⟨_, rfl⟩
    · exact .inr ⟨_, rfl⟩
    · exact .inl ⟨_, rfl⟩
  rcases asked with ⟨permits, asked⟩ | ⟨permits, asked⟩
  · have whole : system.requestPermit index stream delivery = system.afterLoop setup index queue
        (.counted stream delivery) (.starting stream delivery) system.broker system.callers
        system.trace := by
      rw [afterLoop, LoopPhase.requested, asked]
      rfl
    exact ⟨_, .of_move .getPermit whole⟩
  · have whole : system.requestPermit index stream delivery = system.afterLoop setup index queue
        (.counted stream delivery) (.waiting stream delivery) system.broker system.callers
        system.trace := by
      rw [afterLoop, LoopPhase.requested, asked]
      rfl
    exact ⟨_, .of_move .getInLine whole⟩

theorem stepLoop_opening {ready : Nat}
    (found : system.loops[index]? = some ⟨queue, .opening ready⟩)
    (stepped : system.stepLoop setup index heed = some after) :
    ∃ next, LoopStep setup system after index heed queue (.opening ready) none next := by
  simp only [stepLoop, found] at stepped
  split at stepped
  · rename_i heeded
    obtain rfl := Option.some.inj stepped
    obtain ⟨cancelled, heeds⟩ := Bool.and_eq_true_iff.mp heeded
    exact ⟨_, .of_move (.leaveOpening cancelled heeds) rfl⟩
  · rename_i unheeded
    split at stepped
    · rename_i due
      obtain rfl := Option.some.inj stepped
      exact system.openStream_step setup index due (Bool.eq_false_iff.mpr unheeded)
    · simp at stepped

theorem stepLoop_reading (found : system.loops[index]? = some ⟨queue, .reading stream⟩)
    (stepped : system.stepLoop setup index heed = some after) :
    ∃ pulled next, LoopStep setup system after index heed queue (.reading stream) pulled next := by
  simp only [stepLoop, found] at stepped
  split at stepped
  · rename_i heeded
    obtain rfl := Option.some.inj stepped
    obtain ⟨cancelled, heeds⟩ := Bool.and_eq_true_iff.mp heeded
    exact ⟨_, _, .of_move (.leaveStream cancelled heeds) rfl⟩
  · rename_i unheeded
    split at stepped
    · obtain rfl := Option.some.inj stepped
      exact pull_step found (Bool.eq_false_iff.mpr unheeded)
    · simp at stepped

theorem stepLoop_pausing {ready : Nat}
    (found : system.loops[index]? = some ⟨queue, .pausing ready⟩)
    (stepped : system.stepLoop setup index heed = some after) :
    ∃ next, LoopStep setup system after index heed queue (.pausing ready) none next := by
  simp only [stepLoop, found] at stepped
  split at stepped
  · rename_i heeded
    obtain rfl := Option.some.inj stepped
    obtain ⟨cancelled, heeds⟩ := Bool.and_eq_true_iff.mp heeded
    exact ⟨_, .of_move (.leavePause cancelled heeds) rfl⟩
  · split at stepped
    · rename_i due
      obtain rfl := Option.some.inj stepped
      exact ⟨_, .of_move (.retry due) rfl⟩
    · simp at stepped

theorem stepLoop_step {loop : Loop} (found : system.loops[index]? = some loop)
    (stepped : system.stepLoop setup index heed = some after) :
    ∃ pulled next, LoopStep setup system after index heed loop.queue loop.phase pulled next := by
  obtain ⟨queue, phase⟩ := loop
  cases phase with
  | opening ready => exact ⟨none, stepLoop_opening found stepped⟩
  | reading stream => exact stepLoop_reading found stepped
  | pausing ready => exact ⟨none, stepLoop_pausing found stepped⟩
  | top =>
      simp only [stepLoop, found] at stepped
      split at stepped <;> obtain rfl := Option.some.inj stepped
      · rename_i cancelled
        exact ⟨none, _, .of_move (.leaveTop cancelled) rfl⟩
      · rename_i notCancelled
        exact ⟨none, system.beginOpening_step setup index heed queue
          (Bool.eq_false_iff.mpr notCancelled)⟩
  | pulled stream delivery =>
      simp only [stepLoop, found, Option.some.injEq] at stepped
      exact ⟨none, _, .of_move .count stepped.symm⟩
  | counted stream delivery =>
      simp only [stepLoop, found, Option.some.injEq] at stepped
      exact ⟨none, stepped ▸ system.requestPermit_step setup index heed queue stream delivery⟩
  | waiting stream delivery => simp [stepLoop, found] at stepped
  | starting stream delivery =>
      simp only [stepLoop, found, Option.some.injEq] at stepped
      exact ⟨none, _, .of_move .startTask stepped.symm⟩
  | yielding =>
      simp only [stepLoop, found, Option.some.injEq] at stepped
      exact ⟨none, _, .of_move .giveWay stepped.symm⟩
  | stopping =>
      simp only [stepLoop, found] at stepped
      obtain rfl := Option.some.inj stepped
      exact ⟨none, _, .of_last .stop rfl⟩
  | crashed cause =>
      simp only [stepLoop, found] at stepped
      obtain rfl := Option.some.inj stepped
      exact ⟨none, _, .of_last .recoverCrash rfl⟩
  | finished => simp [stepLoop, found] at stepped

theorem stepLoop_permits {loop : Loop} (found : system.loops[index]? = some loop)
    (stepped : system.stepLoop setup index heed = some after) :
    (∃ stream delivery, loop.phase = .counted stream delivery ∧
      after = system.requestPermit index stream delivery) ∨
    loop.phase.asks = false ∧ after.permits = system.permits := by
  obtain ⟨pulled, next, whole⟩ := stepLoop_step found stepped
  obtain ⟨broker, callers, trace, rfl⟩ := whole.whole
  obtain ⟨queue, phase⟩ := loop
  cases phase with
  | counted stream delivery =>
      simp only [stepLoop, found, Option.some.injEq] at stepped
      exact .inl ⟨stream, delivery, rfl, stepped.symm⟩
  | _ => exact .inr ⟨rfl, rfl⟩

end State

end TaskQueue.Consumer
