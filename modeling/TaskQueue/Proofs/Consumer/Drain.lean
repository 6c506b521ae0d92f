import TaskQueue.Proofs.Consumer.Outcomes

/-!
The end of a subscription. A caller returns after everything had ended at some moment of its
waiting; its loop was among what had ended, and what has ended stays so. A loop ends only when the
consumer has been cancelled.
-/

namespace TaskQueue.Consumer

variable {σ ν : Type} {setup : Setup σ} {first system before after : State σ ν}
  {course : Course σ ν} {event : Event σ ν}

def LoopPhase.isOver : LoopPhase → Bool
  | .stopping | .crashed _ | .finished => true
  | _ => false

def Transport.Holds (transport : Transport) : Prop := ∀ queue, transport.breakdown queue = none

theorem LoopMove.isOver {heed : Bool} {queue : String} {phase next : LoopPhase}
    {pulled : Option Delivery} {broker : Broker} (holds : setup.transport.Holds)
    (move : LoopMove setup system heed queue phase pulled next broker)
    (known : phase.isOver = true → system.cancelled = true) (leaves : next.isOver = true) :
    system.cancelled = true := by
  cases move with
  | leaveTop cancelled | leaveOpening cancelled | leavePause cancelled => exact cancelled
  | crash _ broken =>
      rw [holds queue] at broken
      simp at broken
  | openFailed _ _ =>
      rw [LoopPhase.paused_same LoopPhase.isOver fun _ => rfl] at leaves
      simp [LoopPhase.isOver] at leaves
  | ended _ =>
      split at leaves
      · assumption
      · rw [LoopPhase.paused_same LoopPhase.isOver fun _ => rfl] at leaves
        simp [LoopPhase.isOver] at leaves
  | giveWay =>
      split at leaves
      · assumption
      · simp [LoopPhase.isOver] at leaves
  | stop | recoverCrash => exact known rfl
  | _ => simp [LoopPhase.isOver] at leaves

@[simp] theorem Loop.grant_isOver (loop : Loop) : loop.grant.phase.isOver = loop.phase.isOver :=
  loop.grant_same LoopPhase.isOver fun _ _ => rfl

theorem Exposed.cancelled_of_over (holds : setup.transport.Holds) (noLoops : first.loops = [])
    (exposed : Exposed setup first course system) {loop : Loop} (taken : loop ∈ system.loops)
    (leaves : loop.phase.isOver = true) : system.cancelled = true := by
  induction exposed generalizing loop with
  | start => simp [noLoops] at taken
  | step _ stepped ih =>
      cases State.step_stepped stepped with
      | task _ _ _ _ frame effect =>
          rcases frame.mem_loops taken with old | ⟨known, old, rfl⟩
          · exact effect.cancelled (ih old leaves)
          · exact effect.cancelled (ih old (known.grant_isOver ▸ leaves))
      | loop found _ move moved _ _ effect =>
          rw [effect.cancelled]
          rw [moved] at taken
          rcases mem_modify taken with old | ⟨known, foundKnown, rfl⟩
          · exact ih old leaves
          · obtain rfl := Option.some.inj (found.symm.trans foundKnown)
            exact move.isOver holds (ih (List.mem_of_getElem? found)) leaves
      | outside _ _ frame effect =>
          rcases frame.mem_loops taken with old | ⟨queue, _, rfl⟩
          · exact effect.cancelled (ih old leaves)
          · simp [LoopPhase.isOver] at leaves
  | elsewhere broker now _ ih => exact ih taken leaves

structure State.Done (system : State σ ν) (queue : String) (index : Nat) : Prop where
  loop : system.loops[index]? = some ⟨queue, .finished⟩
  tasks : ∀ task ∈ system.tasks, task.puller = index → task.phase.isFinished = true

theorem TaskMove.not_finished {delivery : Delivery} {queue : String} {phase next : TaskPhase σ ν}
    {deed : Option (Deed σ ν)} (move : TaskMove setup system delivery queue phase deed next) :
    phase.isFinished = false := by
  cases move <;> rfl

theorem LoopMove.not_finished {heed : Bool} {queue : String} {phase next : LoopPhase}
    {pulled : Option Delivery} {broker : Broker}
    (move : LoopMove setup system heed queue phase pulled next broker) :
    phase ≠ .finished := by
  cases move <;> exact nofun

theorem State.Done.step {queue : String} {index : Nat} (done : before.Done queue index)
    (stepped : Stepped setup before after event) : after.Done queue index := by
  obtain ⟨finished, tasks⟩ := done
  cases stepped with
  | task found _ move moved frame _ =>
      constructor
      · rcases frame.loops with same | ⟨granted, grants⟩
        · rw [same]
          exact finished
        · rw [grants, List.getElem?_modify, finished]
          by_cases same : granted = index <;> simp [same, Loop.grant]
      · intro task taken pulled
        rw [moved] at taken
        rcases mem_modify taken with old | ⟨known, foundKnown, rfl⟩
        · exact tasks task old pulled
        · have ended := tasks known (List.mem_of_getElem? foundKnown) pulled
          obtain rfl := Option.some.inj (found.symm.trans foundKnown)
          rw [move.not_finished] at ended
          simp at ended
  | loop found pull move moved born frame effect =>
      rename_i puller heed loop pulled next
      have apart : puller ≠ index := by
        rintro rfl
        obtain rfl := Option.some.inj (found.symm.trans finished)
        exact move.not_finished rfl
      constructor
      · rw [moved, List.getElem?_modify, finished]
        simp [apart]
      · intro task taken isPuller
        rw [born, List.mem_append] at taken
        rcases taken with old | fresh
        · exact tasks task old isPuller
        · obtain ⟨delivery, rfl⟩ := LoopPhase.mem_born fresh
          exact absurd isPuller apart
  | outside _ _ frame _ =>
      constructor
      · rcases frame.loops with same | ⟨name, _, added⟩
        · rw [same]
          exact finished
        · rw [added, List.getElem?_append_left (List.getElem?_eq_some_iff.mp finished).1]
          exact finished
      · rw [frame.tasks]
        exact tasks

theorem State.Done.of_idle {index : Nat} {loop : Loop} (idle : system.isIdle = true)
    (found : system.loops[index]? = some loop) : system.Done loop.queue index := by
  simp only [isIdle, Bool.and_eq_true, List.all_eq_true] at idle
  obtain ⟨loops, tasks⟩ := idle
  have finished : loop.phase = .finished := by
    simpa using loops loop (List.mem_of_getElem? found)
  refine ⟨?_, fun task taken _ => tasks task taken⟩
  rw [found, ← finished]

/-- A caller has no loop before it has started one, and is not let go before that has finished. -/
def Caller.Attended (system : State σ ν) (caller : Caller) : Prop :=
  match caller.phase with
  | .calling => caller.loop = none
  | .started | .waiting =>
      ∃ index loop, caller.loop = some index ∧ system.loops[index]? = some loop ∧
        loop.queue = caller.queue
  | .released | .returned => ∃ index, caller.loop = some index ∧ system.Done caller.queue index

theorem Caller.Attended.step {caller : Caller} (attended : caller.Attended before)
    (stepped : before.step setup event = some after) : caller.Attended after := by
  obtain ⟨queue, loop, phase⟩ := caller
  cases phase with
  | calling => exact attended
  | started | waiting =>
      obtain ⟨index, loop, own, found, same⟩ := attended
      obtain ⟨later, foundLater, sameLater⟩ := (State.step_moved stepped).loop_queue found
      exact ⟨index, later, own, foundLater, sameLater.trans same⟩
  | released | returned =>
      obtain ⟨index, own, done⟩ := attended
      exact ⟨index, own, done.step (State.step_stepped stepped)⟩

theorem Caller.Attended.release {caller : Caller} (idle : system.isIdle = true)
    (attended : caller.Attended system) : caller.release.Attended system := by
  obtain ⟨queue, loop, phase⟩ := caller
  cases phase with
  | waiting =>
      obtain ⟨index, loop, own, found, rfl⟩ := attended
      exact ⟨index, own, .of_idle idle found⟩
  | _ => exact attended

theorem CallerMove.attended {caller next : Caller} {born : List Loop}
    (move : CallerMove before caller born next) (loops : after.loops = before.loops ++ born)
    (tasks : after.tasks = before.tasks) (attended : caller.Attended before) :
    next.Attended after := by
  cases move with
  | call =>
      refine ⟨_, ⟨_, .top⟩, rfl, ?_, rfl⟩
      rw [loops]
      exact List.getElem?_concat_length
  | wait _ =>
      obtain ⟨index, loop, own, found, same⟩ := attended
      rw [List.append_nil] at loops
      exact ⟨index, loop, own, loops ▸ found, same⟩
  | pass idle =>
      obtain ⟨index, loop, own, found, rfl⟩ := attended
      rw [List.append_nil] at loops
      have done := State.Done.of_idle idle found
      exact ⟨index, own, loops ▸ done.loop, tasks ▸ done.tasks⟩
  | leave =>
      obtain ⟨index, own, done⟩ := attended
      rw [List.append_nil] at loops
      exact ⟨index, own, loops ▸ done.loop, tasks ▸ done.tasks⟩

theorem Released.mem_callers {caller : Caller} (released : Released before after)
    (taken : caller ∈ after.callers) :
    caller ∈ before.callers ∨
      after.isIdle = true ∧ ∃ known ∈ before.callers, known.release = caller := by
  rcases released with same | ⟨idle, all⟩
  · rw [same] at taken
    exact .inl taken
  · rw [all] at taken
    exact .inr ⟨idle, List.mem_map.mp taken⟩

theorem Exposed.attended (noCallers : first.callers = [])
    (exposed : Exposed setup first course system) {caller : Caller}
    (taken : caller ∈ system.callers) : caller.Attended system := by
  induction exposed generalizing caller with
  | start => simp [noCallers] at taken
  | step _ stepped ih =>
      have release : Released _ _ → caller.Attended _ := fun released => by
        rcases released.mem_callers taken with old | ⟨idle, known, old, rfl⟩
        · exact (ih old).step stepped
        · exact ((ih old).step stepped).release idle
      cases State.step_stepped stepped with
      | task _ _ _ _ _ effect => exact release effect.callers
      | loop _ _ _ _ _ _ effect => exact release effect.callers
      | outside _ _ frame effect =>
          cases effect.callers with
          | none callers _ =>
              rw [callers] at taken
              exact (ih taken).step stepped
          | subscribed queue callers _ =>
              rw [callers, List.mem_append, List.mem_singleton] at taken
              rcases taken with old | rfl
              · exact (ih old).step stepped
              · rfl
          | moved found move callers loops =>
              rw [callers] at taken
              rcases mem_modify taken with old | ⟨known, foundKnown, rfl⟩
              · exact (ih old).step stepped
              · obtain rfl := Option.some.inj (found.symm.trans foundKnown)
                exact move.attended loops frame.tasks (ih (List.mem_of_getElem? found))
  | elsewhere broker now _ ih =>
      have attended := ih taken
      obtain ⟨queue, loop, phase⟩ := caller
      cases phase with
      | calling | started | waiting => exact attended
      | released | returned =>
          obtain ⟨index, own, done⟩ := attended
          exact ⟨index, own, done.loop, done.tasks⟩

structure State.Owned (system : State σ ν) : Prop where
  apart : (system.callers.filterMap Caller.loop).Nodup
  known : ∀ index ∈ system.callers.filterMap Caller.loop, index < system.loops.length

theorem State.Owned.kept (owned : before.Owned)
    (same : after.callers.filterMap Caller.loop = before.callers.filterMap Caller.loop)
    (more : before.loops.length ≤ after.loops.length) : after.Owned := by
  constructor
  · rw [same]
    exact owned.apart
  · intro index taken
    rw [same] at taken
    exact Nat.lt_of_lt_of_le (owned.known index taken) more

theorem Caller.release_loop (caller : Caller) : caller.release.loop = caller.loop := by
  unfold Caller.release
  split <;> rfl

theorem Released.loops (released : Released before after) :
    after.callers.filterMap Caller.loop = before.callers.filterMap Caller.loop := by
  rcases released with same | ⟨_, all⟩
  · rw [same]
  · rw [all, List.filterMap_map]
    congr 1
    funext caller
    exact caller.release_loop

theorem CallerMove.owned {place : Nat} {caller next : Caller} {born : List Loop}
    (owned : before.Owned) (attended : caller.Attended before)
    (found : before.callers[place]? = some caller) (move : CallerMove before caller born next)
    (callers : after.callers = before.callers.modify place fun _ => next)
    (loops : after.loops = before.loops ++ born) : after.Owned := by
  have same := filterMap_modify_perm (fun _ => next) Caller.loop found
  rw [← callers] at same
  have more : before.loops.length ≤ after.loops.length := by
    rw [loops, List.length_append]
    omega
  have still : (after.callers.filterMap Caller.loop).Perm (before.callers.filterMap Caller.loop) →
      after.Owned := by
    intro still
    refine ⟨still.nodup_iff.mpr owned.apart, ?_⟩
    intro index taken
    exact Nat.lt_of_lt_of_le (owned.known index (still.mem_iff.mp taken)) more
  cases move with
  | call =>
      rename_i queue loop
      obtain rfl : loop = none := attended
      have added : (after.callers.filterMap Caller.loop).Perm
          (before.loops.length :: before.callers.filterMap Caller.loop) := same
      constructor
      · rw [added.nodup_iff, List.nodup_cons]
        exact ⟨fun taken => Nat.lt_irrefl _ (owned.known _ taken), owned.apart⟩
      · intro index taken
        rw [loops, List.length_append, List.length_singleton]
        rcases List.mem_cons.mp (added.mem_iff.mp taken) with rfl | old
        · exact Nat.lt_succ_self _
        · exact Nat.lt_succ_of_lt (owned.known index old)
  | wait _ | pass _ | leave => exact still ((List.perm_append_left_iff _).mp same)

theorem Exposed.owned (noCallers : first.callers = [])
    (exposed : Exposed setup first course system) : system.Owned := by
  induction exposed with
  | start => exact ⟨by simp [noCallers], by simp [noCallers]⟩
  | step exposed stepped ih =>
      cases State.step_stepped stepped with
      | task _ _ _ _ frame effect =>
          refine ih.kept effect.callers.loops (Nat.le_of_eq ?_)
          rcases frame.loops with same | ⟨granted, grants⟩
          · rw [same]
          · rw [grants, List.length_modify]
      | loop _ _ _ moved _ _ effect =>
          refine ih.kept effect.callers.loops (Nat.le_of_eq ?_)
          rw [moved, List.length_modify]
      | outside _ _ _ effect =>
          cases effect.callers with
          | none callers loops => exact ih.kept (by rw [callers]) (Nat.le_of_eq (by rw [loops]))
          | subscribed queue callers loops =>
              refine ih.kept ?_ (Nat.le_of_eq (by rw [loops]))
              rw [callers, List.filterMap_append]
              exact List.append_nil _
          | moved found move callers loops =>
              have attended := exposed.attended noCallers (List.mem_of_getElem? found)
              exact move.owned ih attended found callers loops
  | elsewhere broker now _ ih => exact ⟨ih.apart, ih.known⟩

/-- On a channel that does not break down, with a recovery that returns, a caller that has returned
leaves nothing behind: the consumer has been cancelled, the caller's own loop has finished, and each
delivery that the loop pulled went to a task that has finished, made its one call and counted what
came of it. -/
theorem Exposed.drained {registry : Registry (Handler σ ν)} {broker : Broker} {shared : σ}
    (returns : setup.recovery.Returns) (holds : setup.transport.Holds)
    (exposed : Exposed setup (State.start setup registry broker shared) course system)
    {place : Nat} {caller : Caller} (found : system.callers[place]? = some caller)
    (returned : caller.phase = .returned) :
    system.cancelled = true ∧
      ∃ index, caller.loop = some index ∧
        system.loops[index]? = some ⟨caller.queue, .finished⟩ ∧
        (∀ other callerOther, system.callers[other]? = some callerOther →
          callerOther.loop = some index → other = place) ∧
        course.pulledBy setup index = system.handedBy index ∧
        ∀ number task, system.tasks[number]? = some task → task.puller = index →
          task.phase.isFinished = true ∧
            ∃ call, course.calls setup number = [call] ∧ call.tag = task.delivery.tag ∧
              course.outcomes setup number = [call.outcome] := by
  have attended := exposed.attended rfl (List.mem_of_getElem? found)
  obtain ⟨queue, loop, phase⟩ := caller
  obtain rfl : phase = .returned := returned
  obtain ⟨index, rfl, done⟩ := attended
  have leaves : (Loop.mk queue .finished).phase.isOver = true := rfl
  refine ⟨exposed.cancelled_of_over holds rfl (List.mem_of_getElem? done.loop) leaves, index, rfl,
    done.loop, ?own, ?pulled, ?tasks⟩
  case own =>
    intro other callerOther foundOther sameLoop
    by_cases same : other = place
    · exact same
    · exact absurd rfl (ne_of_filterMap_nodup (exposed.owned rfl).apart same foundOther found
        sameLoop rfl)
  case pulled =>
    rw [exposed.custody rfl rfl, State.heldBy_of_finished done.loop rfl, List.append_nil]
  case tasks =>
    intro number task foundTask pulled
    have finished := done.tasks task (List.mem_of_getElem? foundTask) pulled
    have called := exposed.called returns rfl foundTask
    have booked := exposed.booked rfl foundTask
    obtain ⟨once, byEnd, tagged⟩ := called.spec
    obtain ⟨call, calls⟩ := List.length_eq_one_iff.mp (byEnd finished)
    refine ⟨finished, call, calls, ?_, ?_⟩
    · exact (tagged call (by rw [calls]; exact List.mem_singleton_self _)).1
    · rw [Course.calls, calls] at booked
      obtain ⟨delivery, queue, puller, phase⟩ := task
      cases phase with
      | finished => exact booked.symm
      | _ => simp [TaskPhase.isFinished] at finished

def drainedEvents : List (Event Unit Unit) :=
  [.publish "q" none [], .subscribe "q", .caller 0, .caller 0, .loop 0 true, .loop 0 true,
    .loop 0 true, .loop 0 true, .cancelRoot, .loop 0 true, .loop 0 true, .loop 0 true, .loop 0 true,
    .loop 0 true, .task 0, .task 0, .task 0, .task 0, .caller 0]

theorem drained_after_cancel :
    ∃ course system,
      Exposed plainSetup (State.start plainSetup (Registry.empty : Registry (Handler Unit Unit))
          Broker.empty ()) course system ∧
        system.callers.map Caller.phase = [.returned] ∧ (course.pulledBy plainSetup 0).length = 1 ∧
        system.cancelled = true ∧
        ∀ number task, system.tasks[number]? = some task → task.puller = 0 →
          ∃ call, course.calls plainSetup number = [call] ∧
            course.outcomes plainSetup number = [call.outcome] := by
  have seen : ((State.start plainSetup Registry.empty Broker.empty ()).follow plainSetup
      drainedEvents).any (fun led =>
        decide (led.2.callers = [⟨"q", some 0, .returned⟩]) &&
          decide ((led.1.pulledBy plainSetup 0).length = 1)) = true := by
    decide +kernel
  obtain ⟨⟨course, system⟩, followed, checked⟩ := (Option.any_eq_true _ _).mp seen
  simp only [Bool.and_eq_true, decide_eq_true_eq] at checked
  obtain ⟨callers, pulled⟩ := checked
  have exposed := (Run.start.follow followed).exposed
  have returns : plainSetup.recovery.Returns := fun _ _ _ => rfl
  have holds : plainSetup.transport.Holds := fun _ => rfl
  have found : system.callers[0]? = some ⟨"q", some 0, .returned⟩ := by rw [callers]; rfl
  obtain ⟨cancelled, index, own, _, _, _, tasks⟩ := Exposed.drained returns holds exposed found rfl
  obtain rfl := Option.some.inj own
  refine ⟨_, _, exposed, by simp [callers], pulled, cancelled, ?_⟩
  intro number task foundTask isPuller
  obtain ⟨_, call, calls, _, outcomes⟩ := tasks number task foundTask isPuller
  exact ⟨call, calls, outcomes⟩

end TaskQueue.Consumer
