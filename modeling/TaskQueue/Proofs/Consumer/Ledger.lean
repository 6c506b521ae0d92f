import TaskQueue.Proofs.Consumer.Outcomes
import TaskQueue.Proofs.Consumer.Tags

/-!
What the counts of a consumer say about its broker. Whatever is counted has happened a step before,
so a count is behind what happened by those who are about to count, and not at all when nobody is
under way.
-/

namespace TaskQueue

def Counts.settled (counts : Counts) : Nat :=
  counts.acked + counts.rejected + counts.terminateFailures

theorem Counts.count_counted (counts : Counts) (counter? : Option Counter) (counter : Counter) :
    (counts.counted counter?).get counter =
      counts.get counter + counter?.toList.count counter := by
  rw [get_counted]
  cases counter? <;> simp [List.count_singleton]

theorem Counts.settled_counted (counts : Counts) (counter? : Option Counter) :
    (counts.counted counter?).settled =
      counts.settled + (counter?.any Counter.isOutcome).toNat := by
  cases counter? with
  | none => rfl
  | some counter => cases counter <;> simp +arith [counted, count, settled, Counter.isOutcome]

namespace Consumer

variable {σ ν : Type} {setup : Setup σ} {first system before after : State σ ν}
  {course : Course σ ν} {event : Event σ ν}

def Happening.counter? : Happening σ ν → Option Counter
  | .pulled _ _ _ => some .received
  | .task _ (.called call) => some call.outcome
  | .task _ (.recovered _ _) => some .recoveredPanics
  | _ => none

/-- What loops and tasks are about to count. -/
def State.due (system : State σ ν) : List Counter :=
  (system.loops.flatMap fun loop => loop.phase.counter?.toList) ++
    system.tasks.flatMap fun task => task.phase.counter?.toList

theorem LoopMove.counter {heed : Bool} {queue : String} {phase next : LoopPhase}
    {pulled : Option Delivery} {broker : Broker}
    (move : LoopMove setup system heed queue phase pulled next broker) :
    pulled.map (fun _ => Counter.received) = next.counter? := by
  cases move with
  | openFailed _ _ => exact (LoopPhase.paused_same LoopPhase.counter? (fun _ => rfl) setup _).symm
  | ended _ =>
      split
      · rfl
      · exact (LoopPhase.paused_same LoopPhase.counter? (fun _ => rfl) setup _).symm
  | giveWay => split <;> rfl
  | _ => rfl

theorem TaskMove.counter {task : Task σ ν} {deed : Option (Deed σ ν)} {next : TaskPhase σ ν}
    {deeds : List (Deed σ ν)} (returns : setup.recovery.Returns)
    (move : TaskMove setup system task.delivery task.queue task.phase deed next)
    (called : task.Called deeds) (index : Nat) :
    (deed.map (Happening.task index)).bind Happening.counter? = next.counter? := by
  obtain ⟨delivery, queue, puller, phase⟩ := task
  cases move with
  | settle _ => exact congrArg some (Verdict.outcome _ _)
  | recoverHandlerBroke broke | recoverBroke broke =>
      rw [recover_returns returns] at broke
      simp at broke
  | recoverEscaped => exact called.elim
  | _ => rfl

theorem LoopPhase.counter_born (phase : LoopPhase) (queue : String) (index : Nat) :
    ((phase.born queue index : List (Task σ ν)).flatMap fun task =>
      task.phase.counter?.toList) = [] := by
  cases phase <;> rfl

theorem LoopEffect.get_counts {index : Nat} {phase next : LoopPhase} {counter : Counter}
    (effect : LoopEffect setup before after index phase next) (seen : counter ≠ .streamFailures) :
    after.counts.get counter =
      before.counts.get counter + phase.counter?.toList.count counter := by
  rw [effect.counts, Counts.count_counted]
  rcases phase.counterTo?_cases next with same | ⟨silent, failed⟩
  · rw [same]
  · simp [failed, silent, seen.symm]

theorem LoopEffect.settled {index : Nat} {phase next : LoopPhase}
    (effect : LoopEffect setup before after index phase next) :
    after.counts.settled = before.counts.settled := by
  rw [effect.counts, Counts.settled_counted]
  rcases phase.counterTo?_cases next with same | ⟨_, failed⟩
  · rw [same]
    cases phase <;> rfl
  · rw [failed]
    rfl

theorem due_task {index : Nat} {task : Task σ ν} {next : TaskPhase σ ν}
    {deed : Option (Deed σ ν)} (found : before.tasks[index]? = some task)
    (moved : after.tasks = before.tasks.modify index fun task => { task with phase := next })
    (frame : TaskFrame before after deed) (counter : Counter) :
    task.phase.counter?.toList.count counter + after.due.count counter =
      next.counter?.toList.count counter + before.due.count counter := by
  have loops := frame.flatMap_loops (·.counter?.toList) fun _ _ => rfl
  have tasks := (flatMap_modify_perm (fun task => { task with phase := next })
    (fun task => task.phase.counter?.toList) found).count_eq counter
  simp only [State.due, loops, moved, List.count_append] at tasks ⊢
  omega

theorem due_loop {index : Nat} {loop : Loop} {next : LoopPhase}
    (found : before.loops[index]? = some loop)
    (moved : after.loops = before.loops.modify index fun loop => { loop with phase := next })
    (born : after.tasks = before.tasks ++ loop.phase.born loop.queue index) (counter : Counter) :
    loop.phase.counter?.toList.count counter + after.due.count counter =
      next.counter?.toList.count counter + before.due.count counter := by
  have loops := (flatMap_modify_perm (fun loop => { loop with phase := next })
    (fun loop => loop.phase.counter?.toList) found).count_eq counter
  simp only [State.due, moved, born, List.flatMap_append, LoopPhase.counter_born,
    List.count_append, List.append_nil] at loops ⊢
  omega

theorem due_outside (frame : OutsideFrame before after event) : after.due = before.due := by
  rw [State.due, State.due, frame.tasks, frame.flatMap_loops (·.counter?.toList) rfl]

theorem Run.counted {counter : Counter} (returns : setup.recovery.Returns)
    (noTasks : first.tasks = []) (noLoops : first.loops = []) (zero : first.counts = Counts.zero)
    (seen : counter ≠ .streamFailures) (run : Run setup first course system) :
    system.counts.get counter + system.due.count counter =
      (course.gather Happening.counter? setup).count counter := by
  induction run with
  | start =>
      rw [State.due, noTasks, noLoops, zero]
      cases counter <;> rfl
  | step run stepped ih =>
      rename_i course before after event
      rw [Course.gather_append, List.count_append]
      cases State.step_stepped stepped with
      | task found ran move moved frame effect =>
          rename_i doer mover next
          -- what happens with this step is due after it, and what was due is counted by it
          have happened := move.counter returns (run.called returns noTasks found) doer
          have due := due_task found moved frame counter
          rw [State.happening?, happened, effect.counts, Counts.count_counted]
          omega
      | loop found pull move moved born frame effect =>
          rename_i puller heed loop pulled next
          have happened : (before.happening? setup (.loop puller heed)).bind Happening.counter? =
              next.counter? := by
            rw [← move.counter]
            cases pulled <;> simp [State.happening?, pull, Happening.counter?]
          have due := due_loop found moved born counter
          rw [happened, effect.get_counts seen]
          omega
      | outside notTask notLoop frame effect =>
          have happened : (before.happening? setup event).bind Happening.counter? = none := by
            cases event with
            | task index => exact absurd rfl (notTask index)
            | loop index heed => exact absurd rfl (notLoop index heed)
            | _ => rfl
          rw [happened, effect.counts, due_outside frame]
          exact ih

theorem Run.counts_le (zero : first.counts = Counts.zero) (run : Run setup first course system)
    (counter : Counter) : system.counts.get counter ≤ course.length := by
  induction run with
  | start =>
      rw [zero]
      cases counter <;> exact Nat.le_refl _
  | step _ stepped ih =>
      have once (counts : Counts) (counter? : Option Counter) :
          (counts.counted counter?).get counter ≤ counts.get counter + 1 := by
        rw [Counts.get_counted]
        split <;> omega
      rw [List.length_append, List.length_singleton]
      cases State.step_stepped stepped with
      | task _ _ _ _ _ effect =>
          rw [effect.counts]
          exact Nat.le_trans (once _ _) (Nat.succ_le_succ ih)
      | loop _ _ _ _ _ _ effect =>
          rw [effect.counts]
          exact Nat.le_trans (once _ _) (Nat.succ_le_succ ih)
      | outside _ _ _ effect =>
          rw [effect.counts]
          exact Nat.le_succ_of_le ih

def LoopPhase.owed : LoopPhase → List Delivery
  | .counted _ delivery | .waiting _ delivery | .starting _ delivery => [delivery]
  | _ => []

def Task.owes (task : Task σ ν) : Bool :=
  match task.phase with
  | .leaving | .finished => false
  | _ => true

/-- How many have been counted as received whose outcome has not been counted. -/
def State.owed (system : State σ ν) : Nat :=
  (system.loops.flatMap fun loop => loop.phase.owed).length + system.tasks.countP Task.owes

theorem LoopMove.owed {heed : Bool} {queue : String} {phase next : LoopPhase}
    {pulled : Option Delivery} {broker : Broker}
    (move : LoopMove setup system heed queue phase pulled next broker) (index : Nat) :
    phase.counter?.toList.count .received + phase.owed.length =
      (phase.born queue index : List (Task σ ν)).countP Task.owes + next.owed.length := by
  cases move with
  | openFailed _ _ =>
      rw [LoopPhase.paused_same LoopPhase.owed fun _ => rfl]
      rfl
  | ended _ =>
      split
      · rfl
      · rw [LoopPhase.paused_same LoopPhase.owed fun _ => rfl]
        rfl
  | giveWay => split <;> rfl
  | _ => rfl

theorem TaskMove.owes {task : Task σ ν} {deed : Option (Deed σ ν)} {next : TaskPhase σ ν}
    {deeds : List (Deed σ ν)} (called : task.Called deeds)
    (move : TaskMove setup system task.delivery task.queue task.phase deed next) :
    task.owes.toNat = (task.phase.counter?.any Counter.isOutcome).toNat +
      (Task.owes { task with phase := next }).toNat := by
  obtain ⟨delivery, queue, puller, phase⟩ := task
  cases move with
  | countSettled =>
      rename_i verdict
      cases verdict <;> rfl
  | recoverEscaped => exact called.elim
  | _ => rfl

theorem TaskPhase.count_received (phase : TaskPhase σ ν) :
    phase.counter?.toList.count .received = 0 := by
  cases phase with
  | settled verdict => cases verdict <;> rfl
  | _ => rfl

theorem owed_task {index : Nat} {task : Task σ ν} {next : TaskPhase σ ν}
    {deed : Option (Deed σ ν)} (found : before.tasks[index]? = some task)
    (moved : after.tasks = before.tasks.modify index fun task => { task with phase := next })
    (frame : TaskFrame before after deed) :
    after.owed + task.owes.toNat =
      before.owed + (Task.owes { task with phase := next }).toNat := by
  have loops := frame.flatMap_loops LoopPhase.owed fun _ _ => rfl
  have tasks := countP_modify (fun task => { task with phase := next }) Task.owes found
  rw [State.owed, State.owed, loops, moved]
  omega

theorem owed_loop {index : Nat} {loop : Loop} {next : LoopPhase}
    (found : before.loops[index]? = some loop)
    (moved : after.loops = before.loops.modify index fun loop => { loop with phase := next })
    (born : after.tasks = before.tasks ++ loop.phase.born loop.queue index) :
    after.owed + loop.phase.owed.length =
      before.owed + (next.owed.length +
        (loop.phase.born loop.queue index : List (Task σ ν)).countP Task.owes) := by
  have loops := (flatMap_modify_perm (fun loop => { loop with phase := next })
    (fun loop => loop.phase.owed) found).length_eq
  simp only [State.owed, moved, born, List.countP_append, List.length_append] at loops ⊢
  omega

theorem Run.received_eq (returns : setup.recovery.Returns) (noTasks : first.tasks = [])
    (noLoops : first.loops = []) (zero : first.counts = Counts.zero)
    (run : Run setup first course system) :
    system.counts.get .received = system.counts.settled + system.owed := by
  induction run with
  | start =>
      rw [State.owed, noTasks, noLoops, zero]
      rfl
  | step run stepped ih =>
      rename_i course before after event
      cases State.step_stepped stepped with
      | task found _ move moved frame effect =>
          have owes := move.owes (run.called returns noTasks found)
          have owed := owed_task found moved frame
          rw [effect.counts, Counts.count_counted, Counts.settled_counted,
            TaskPhase.count_received]
          omega
      | loop found pull move moved born frame effect =>
          rename_i puller heed loop pulled next
          -- a debt begins with the loop that counts the delivery, and passes to the task
          have owes := move.owed puller
          have owed := owed_loop found moved born
          have received : after.counts.get .received =
              before.counts.get .received + loop.phase.counter?.toList.count .received :=
            effect.get_counts nofun
          rw [received, effect.settled]
          omega
      | outside _ _ frame effect =>
          rw [effect.counts, State.owed, frame.flatMap_loops LoopPhase.owed rfl, frame.tasks]
          exact ih

namespace Deed

def isBreakdown : Deed σ ν → Bool
  | .broke _ | .answered _ (.panicked _) => true
  | _ => false

def isRecovery : Deed σ ν → Bool
  | .recovered _ _ => true
  | _ => false

end Deed

def Happening.recoveredFor? : Happening σ ν → Option Nat
  | .task index (.recovered _ _) => some index
  | _ => none

namespace Course

/-- The tasks for which the recovery was called, one for each call. -/
def recoveries (setup : Setup σ) (course : Course σ ν) : List Nat :=
  course.gather Happening.recoveredFor? setup

def broken (setup : Setup σ) (course : Course σ ν) (tasks : Nat) : List Nat :=
  (List.range tasks).filter fun index => (course.deeds setup index).any Deed.isBreakdown

theorem count_recoveries (setup : Setup σ) (course : Course σ ν) (index : Nat) :
    (course.recoveries setup).count index = (course.deeds setup index).countP Deed.isRecovery := by
  unfold recoveries deeds gather
  rw [List.count_filterMap, List.countP_filterMap]
  apply List.countP_congr
  intro happening _
  cases happening with
  | task doer deed =>
      by_cases same : doer = index <;> cases deed <;>
        simp [Happening.recoveredFor?, Happening.deedOf?, Deed.isRecovery, same]
  | _ => simp [Happening.recoveredFor?, Happening.deedOf?]

theorem length_recoveries (setup : Setup σ) (course : Course σ ν) :
    (course.recoveries setup).length =
      (course.gather Happening.counter? setup).count .recoveredPanics := by
  unfold recoveries gather
  rw [List.count_filterMap, List.length_filterMap_eq_countP]
  apply List.countP_congr
  intro happening _
  cases happening with
  | task doer deed =>
      cases deed with
      | called call =>
          obtain ⟨tag, termination, result⟩ := call
          cases result <;> cases termination <;>
            simp [Happening.recoveredFor?, Happening.counter?, Call.outcome, Termination.isAck]
      | _ => simp [Happening.recoveredFor?, Happening.counter?]
  | _ => simp [Happening.recoveredFor?, Happening.counter?]

end Course

def Task.Mended (breakdowns recoveries : Nat) (task : Task σ ν) : Prop :=
  match task.phase with
  | .fresh | .unpacked _ | .borrowed _ | .decoded _ | .checked _ => breakdowns = 0 ∧ recoveries = 0
  | .running _ _ _ | .sleeping _ _ _ _ => breakdowns = 0 ∧ recoveries = 0
  | .handlerPanicked _ _ | .unwinding _ _ | .caught _ => breakdowns = 1 ∧ recoveries = 0
  | .escaped _ | .uncaught _ => False
  | _ => breakdowns ≤ 1 ∧ recoveries = breakdowns

theorem TaskMove.mended {task : Task σ ν} {deed : Option (Deed σ ν)} {next : TaskPhase σ ν}
    {breakdowns recoveries : Nat} (returns : setup.recovery.Returns)
    (move : TaskMove setup system task.delivery task.queue task.phase deed next)
    (mended : task.Mended breakdowns recoveries) :
    Task.Mended (breakdowns + deed.toList.countP Deed.isBreakdown)
      (recoveries + deed.toList.countP Deed.isRecovery) { task with phase := next } := by
  obtain ⟨delivery, queue, puller, phase⟩ := task
  simp only [Task.Mended] at mended ⊢
  cases move with
  | recoverHandlerBroke broke | recoverBroke broke =>
      rw [recover_returns returns] at broke
      simp at broke
  | escape | recoverEscaped => exact mended.elim
  | _ =>
      simp only [Option.toList_none, Option.toList_some, List.countP_nil, List.countP_singleton,
        Deed.isBreakdown, Deed.isRecovery, if_true, if_false, Bool.false_eq_true] at mended ⊢
      omega

theorem Run.mended (returns : setup.recovery.Returns) (noTasks : first.tasks = [])
    (run : Run setup first course system) {index : Nat} {task : Task σ ν}
    (found : system.tasks[index]? = some task) :
    task.Mended ((course.deeds setup index).countP Deed.isBreakdown)
      ((course.deeds setup index).countP Deed.isRecovery) := by
  refine (run.forall_tasks (fun deeds task =>
    task.Mended (deeds.countP Deed.isBreakdown) (deeds.countP Deed.isRecovery)) noTasks
    (fun _ _ _ => ⟨rfl, rfl⟩) ?_).1 index task found
  intro before doer mover deed next deeds _ move mended
  rw [List.countP_append, List.countP_append]
  exact move.mended returns mended

theorem Course.count_broken (setup : Setup σ) (course : Course σ ν) (tasks index : Nat) :
    (course.broken setup tasks).count index =
      if index < tasks ∧ 0 < (course.deeds setup index).countP Deed.isBreakdown then 1 else 0 := by
  have apart : (course.broken setup tasks).Nodup :=
    List.nodup_range.sublist List.filter_sublist
  rw [apart.count]
  simp [broken, List.countP_pos_iff]

theorem Run.recoveries_perm (returns : setup.recovery.Returns) (noTasks : first.tasks = [])
    (run : Run setup first course system)
    (ended : ∀ task ∈ system.tasks, task.phase.isFinished = true) :
    (course.recoveries setup).Perm (course.broken setup system.tasks.length) := by
  rw [List.perm_iff_count]
  intro index
  rw [Course.count_recoveries, Course.count_broken]
  cases found : system.tasks[index]? with
  | none =>
      have beyond := List.getElem?_eq_none_iff.mp found
      rw [run.deeds_unknown noTasks beyond, if_neg fun known => by omega]
      rfl
  | some task =>
      have bound := (List.getElem?_eq_some_iff.mp found).1
      have finished := ended task (List.mem_of_getElem? found)
      have mended := run.mended returns noTasks found
      obtain ⟨delivery, queue, puller, phase⟩ := task
      cases phase with
      | finished =>
          obtain ⟨once, seen⟩ := mended
          rw [seen]
          split <;> omega
      | _ => simp [TaskPhase.isFinished] at finished

theorem Course.count_recorded (setup : Setup σ) (course : Course σ ν) (verdict : Verdict) :
    (course.recorded setup).countP (fun entry => entry.2.isAck == verdict.termination.isAck) =
      (course.gather Happening.counter? setup).count verdict.counter := by
  unfold recorded gather
  rw [List.count_filterMap, List.countP_filterMap]
  apply List.countP_congr
  intro happening _
  cases happening with
  | task doer deed =>
      cases deed with
      | called call =>
          obtain ⟨tag, termination, result⟩ := call
          cases result <;> cases termination <;> cases verdict <;>
            simp [Happening.recorded?, Happening.counter?, Call.outcome, Termination.isAck,
              Verdict.termination, Verdict.counter]
      | _ => cases verdict <;> simp [Happening.recorded?, Happening.counter?, Verdict.counter]
  | _ => cases verdict <;> simp [Happening.recorded?, Happening.counter?, Verdict.counter]

theorem Course.mem_recorded {tag : UInt64} {termination : Termination}
    (taken : (tag, termination) ∈ course.recorded setup) :
    ∃ index, ⟨tag, termination, .ok ()⟩ ∈ course.calls setup index := by
  obtain ⟨moment, passed, happening, happened, picked⟩ := mem_gather.mp taken
  cases happening with
  | task index deed =>
      refine ⟨index, List.mem_filterMap.mpr ⟨deed, ?_, ?_⟩⟩
      · exact mem_gather.mpr ⟨moment, passed, _, happened, by simp [Happening.deedOf?]⟩
      · cases deed with
        | called call =>
            obtain ⟨called, ending, result⟩ := call
            cases result with
            | ok => simpa [Happening.recorded?, Deed.call?] using picked
            | error error => simp [Happening.recorded?] at picked
        | _ => simp [Happening.recorded?] at picked
  | _ => simp [Happening.recorded?] at picked

theorem Run.recorded_spec (returns : setup.recovery.Returns) (noTasks : first.tasks = [])
    (run : Run setup first course system) {tag : UInt64} {termination : Termination}
    (taken : (tag, termination) ∈ course.recorded setup) :
    termination = .ack false ∨ termination = .reject false := by
  obtain ⟨index, called⟩ := Course.mem_recorded taken
  cases found : system.tasks[index]? with
  | none =>
      have beyond := List.getElem?_eq_none_iff.mp found
      rw [Course.calls, run.deeds_unknown noTasks beyond] at called
      simp at called
  | some task => exact ((run.called returns noTasks found).spec.2.2 _ called).2

def Course.unsettled (setup : Setup σ) (course : Course σ ν) (tasks : Nat) : List Nat :=
  (List.range tasks).filter fun index => (course.outcomes setup index).isEmpty

theorem Task.Booked.isEmpty {deeds : List (Deed σ ν)} {outcomes : List Counter}
    {task : Task σ ν} (booked : task.Booked (deeds.filterMap Deed.call?) outcomes)
    (called : task.Called deeds) : outcomes.isEmpty = task.owes := by
  obtain ⟨delivery, queue, puller, phase⟩ := task
  cases phase with
  | leaving | finished =>
      obtain ⟨verdict, result, once⟩ := called
      rw [once] at booked
      simp only [Task.Booked, List.map_cons] at booked
      rw [← booked]
      rfl
  | escaped _ | uncaught _ => exact called.elim
  | _ => rw [booked.2]; rfl

theorem Run.length_unsettled (returns : setup.recovery.Returns) (noTasks : first.tasks = [])
    (run : Run setup first course system) :
    (course.unsettled setup system.tasks.length).length = system.tasks.countP Task.owes := by
  apply length_filter_range
  intro index task found
  exact (run.exposed.booked noTasks found).isEmpty (run.called returns noTasks found)

/-- What the counts say at any moment. -/
structure Ledger (setup : Setup σ) (course : Course σ ν) (system : State σ ν) : Prop where
  shown : ∀ counter, system.counts.get counter < UInt64.size
  received : system.counts.received =
    system.counts.acked + system.counts.rejected + system.counts.terminateFailures +
      ((system.loops.flatMap fun loop => loop.phase.owed).length +
        (course.unsettled setup system.tasks.length).length)
  acked : system.counts.acked ≤ system.broker.acked
  rejected : system.counts.rejected ≤ system.broker.rejected
  once : ∀ tag, (system.broker.terminationsOf tag).length ≤ 1
  ended : ∀ entry ∈ system.broker.log, entry.2 = .ack false ∨ entry.2 = .reject false

structure State.Settled (system : State σ ν) : Prop where
  tasks : ∀ task ∈ system.tasks, task.phase.isFinished = true
  loops : ∀ loop ∈ system.loops, loop.phase.held = []

/-- What the counts say when all is settled. -/
structure Ledger.Closed (setup : Setup σ) (course : Course σ ν) (system : State σ ν) : Prop where
  acked : system.counts.acked = system.broker.acked
  rejected : system.counts.rejected = system.broker.rejected
  received :
    system.broker.log.length + system.counts.terminateFailures = system.counts.received
  broken : system.counts.recoveredPanics = (course.broken setup system.tasks.length).length
  recoveries : (course.recoveries setup).Perm (course.broken setup system.tasks.length)

theorem LoopPhase.nothing_of_held {phase : LoopPhase} (nothing : phase.held = []) :
    phase.counter? = none ∧ phase.owed = [] := by
  cases phase with
  | pulled _ _ | counted _ _ | waiting _ _ | starting _ _ => simp [held] at nothing
  | _ => exact ⟨rfl, rfl⟩

theorem Task.nothing_of_finished {task : Task σ ν} (finished : task.phase.isFinished = true) :
    task.phase.counter? = none ∧ task.owes = false := by
  obtain ⟨delivery, queue, puller, phase⟩ := task
  cases phase with
  | finished => exact ⟨rfl, rfl⟩
  | _ => simp [TaskPhase.isFinished] at finished

theorem State.Settled.due (settled : system.Settled) : system.due = [] := by
  refine List.append_eq_nil_iff.mpr ⟨List.flatMap_eq_nil_iff.mpr ?_, List.flatMap_eq_nil_iff.mpr ?_⟩
  · intro loop taken
    rw [(LoopPhase.nothing_of_held (settled.loops loop taken)).1]
    rfl
  · intro task taken
    rw [(Task.nothing_of_finished (settled.tasks task taken)).1]
    rfl

theorem State.Settled.owed (settled : system.Settled) : system.owed = 0 := by
  have loops : (system.loops.flatMap fun loop => loop.phase.owed) = [] :=
    List.flatMap_eq_nil_iff.mpr fun loop taken =>
      (LoopPhase.nothing_of_held (settled.loops loop taken)).2
  have tasks : system.tasks.countP Task.owes = 0 :=
    List.countP_eq_zero.mpr fun task taken => by
      simp [(Task.nothing_of_finished (settled.tasks task taken)).2]
  rw [State.owed, loops, tasks]
  rfl

/-- Nothing is counted that did not happen, and in the end nothing is left uncounted. Of what has
been counted as received all has been counted as ended but for what a loop or a task still has; the
log is ahead of the counts of acks and rejects, and has at most one entry for a tag; and when all is
settled the counts agree with the log, and the recovery has been called once for each delivery whose
processing broke down. -/
theorem Run.accounted {registry : Registry (Handler σ ν)} {broker : Broker} {shared : σ}
    (returns : setup.recovery.Returns) (made : broker.Made) (unlogged : broker.log = [])
    (few : broker.published + course.length < UInt64.size)
    (run : Run setup (State.start setup registry broker shared) course system) :
    Ledger setup course system ∧ (system.Settled → Ledger.Closed setup course system) := by
  have behind (counter : Counter) (seen : counter ≠ .streamFailures) :=
    run.counted returns rfl rfl rfl seen
  have received := run.received_eq returns rfl rfl rfl
  have log : system.broker.log = course.recorded setup := by
    rw [run.log]
    exact congrArg (· ++ course.recorded setup) unlogged
  have acked : system.broker.acked = (course.gather Happening.counter? setup).count .acked := by
    refine Eq.trans ?_ (Course.count_recorded setup course .ack)
    simp [Broker.acked, log, Verdict.termination, Termination.isAck]
  have rejected :
      system.broker.rejected = (course.gather Happening.counter? setup).count .rejected := by
    refine Eq.trans ?_ (Course.count_recorded setup course .reject)
    simp [Broker.rejected, log, Verdict.termination, Termination.isAck]
  constructor
  · refine ⟨?shown, ?received, ?acked, ?rejected, ?once, ?ended⟩
    case shown =>
      intro counter
      have bound := run.counts_le rfl counter
      omega
    case received =>
      rw [run.length_unsettled returns rfl]
      exact received
    case acked =>
      rw [acked, ← behind .acked nofun]
      exact Nat.le_add_right _ _
    case rejected =>
      rw [rejected, ← behind .rejected nofun]
      exact Nat.le_add_right _ _
    case once =>
      have issued := run.issued made unlogged few
      have apart := (List.nodup_append.mp (List.nodup_append.mp issued.apart).2.1).1
      exact Broker.terminationsOf_le_one apart
    case ended =>
      intro entry taken
      rw [log] at taken
      exact run.recorded_spec returns rfl taken
  · intro settled
    have exactly (counter : Counter) (seen : counter ≠ .streamFailures) :
        system.counts.get counter = (course.gather Happening.counter? setup).count counter := by
      rw [← behind counter seen, settled.due, List.count_nil, Nat.add_zero]
    refine ⟨?acked, ?rejected, ?received, ?broken, ?recoveries⟩
    case acked => exact (exactly .acked nofun).trans acked.symm
    case rejected => exact (exactly .rejected nofun).trans rejected.symm
    case received =>
      have entries : system.broker.log.length = system.broker.acked + system.broker.rejected := by
        rw [Broker.acked, Broker.rejected, List.length_eq_countP_add_countP fun entry =>
          Termination.isAck entry.2]
        simp
      have acks := (exactly .acked nofun).trans acked.symm
      have rejects := (exactly .rejected nofun).trans rejected.symm
      rw [settled.owed] at received
      simp only [Counts.get, Counts.settled] at acks rejects received
      omega
    case broken =>
      rw [← (run.recoveries_perm returns rfl settled.tasks).length_eq, Course.length_recoveries]
      exact exactly .recoveredPanics nofun
    case recoveries => exact run.recoveries_perm returns rfl settled.tasks

/-- Three messages: one is acked, the handler of the next breaks down, and the attempt to end the
last is refused. -/
def accountedEvents : List (Event Unit Unit) :=
  let body (name : String) := Bytes.ofText ("\x7b\"task_name\":\"" ++ name ++ "\"\x7d")
  [.register "ok" fun _ _ => .succeed, .register "bad" fun _ _ => .panic ⟨none⟩,
    .publish "q" (some "a") (body "ok"), .publish "q" (some "b") (body "bad"),
    .publish "q" (some "c") (body "ok"), .subscribe "q", .caller 0] ++
  List.replicate 14 (.loop 0 true) ++ List.replicate 10 (.task 0) ++
  List.replicate 12 (.task 1) ++ .failTerminations 1 :: List.replicate 10 (.task 2)

theorem accounted_mixed :
    ∃ (course : Course Unit Unit) (system : State Unit Unit),
      Run plainSetup (State.start plainSetup Registry.empty Broker.empty ()) course system ∧
        system.counts = ⟨3, 1, 1, 1, 1, 0⟩ ∧ system.broker.acked = 1 ∧
        system.broker.rejected = 1 ∧ (course.recoveries plainSetup).length = 1 := by
  have seen : ((State.start plainSetup Registry.empty Broker.empty ()).follow plainSetup
      accountedEvents).any (fun led => decide (led.2.counts = ⟨3, 1, 1, 1, 1, 0⟩) &&
        (decide (led.1.length = 54) && (led.2.tasks.all (fun task => task.phase.isFinished) &&
          led.2.loops.all fun loop => loop.phase.held.isEmpty))) = true := by
    decide +kernel
  obtain ⟨⟨course, system⟩, followed, checked⟩ := (Option.any_eq_true _ _).mp seen
  simp only [Bool.and_eq_true, decide_eq_true_eq, List.all_eq_true, List.isEmpty_iff] at checked
  obtain ⟨counts, length, tasks, loops⟩ := checked
  have returns : plainSetup.recovery.Returns := fun _ _ _ => rfl
  have run := Run.start.follow followed
  have few : Broker.empty.published + course.length < UInt64.size := by
    rw [length]
    decide
  have closed := (Run.accounted returns Broker.Made.empty rfl few run).2 ⟨tasks, loops⟩
  have acked := closed.acked
  have rejected := closed.rejected
  have broken := closed.broken
  rw [← closed.recoveries.length_eq] at broken
  rw [counts] at acked rejected broken
  exact ⟨_, _, run, counts, acked.symm, rejected.symm, broken.symm⟩

end Consumer

end TaskQueue
