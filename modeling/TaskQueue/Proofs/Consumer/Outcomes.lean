import TaskQueue.Proofs.Consumer.Exposed

/-!
How the one call of a task is counted: as an ack, as a reject, or as an attempt that was refused.
What a task has counted are the outcomes of its calls, and only between the call and the count is
one missing.
-/

namespace TaskQueue

def Counter.isOutcome : Counter → Bool
  | .acked | .rejected | .terminateFailures => true
  | _ => false

namespace Consumer

variable {σ ν : Type} {setup : Setup σ} {first system after : State σ ν} {course : Course σ ν}

def Call.outcome (call : Call) : Counter :=
  match call.result with
  | .ok () => if call.termination.isAck then .acked else .rejected
  | .error _ => .terminateFailures

/-- The counts that are higher after the next step of a task. -/
def State.raised (system : State σ ν) (setup : Setup σ) (index : Nat) : List Counter :=
  match system.stepTask setup index with
  | none => []
  | some after =>
      Counter.all.filter fun counter => system.counts.get counter < after.counts.get counter

def Course.outcomes (setup : Setup σ) (course : Course σ ν) (index : Nat) : List Counter :=
  (course.turns index).flatMap fun system => (system.raised setup index).filter Counter.isOutcome

theorem raised_eq {index : Nat} {task : Task σ ν} (found : system.tasks[index]? = some task)
    (stepped : system.stepTask setup index = some after) :
    system.raised setup index = task.phase.counter?.toList := by
  have counts := (State.stepTask_effect found stepped).counts
  have raises : system.raised setup index =
      Counter.all.filter fun counter => task.phase.counter? = some counter := by
    simp only [State.raised, stepped, counts, Counts.get_counted]
    apply List.filter_congr
    intro counter _
    by_cases counted : task.phase.counter? = some counter <;> simp [counted]
  rw [raises]
  cases task.phase.counter? with
  | none => rfl
  | some counter => cases counter <;> rfl

def Task.Booked (calls : List Call) (outcomes : List Counter) (task : Task σ ν) : Prop :=
  match task.phase with
  | .settled verdict => calls.map Call.outcome = [verdict.counter] ∧ outcomes = []
  | .refused _ => calls.map Call.outcome = [.terminateFailures] ∧ outcomes = []
  | .leaving | .finished => calls.map Call.outcome = outcomes
  | _ => calls = [] ∧ outcomes = []

theorem Verdict.outcome (verdict : Verdict) (tag : UInt64) :
    Call.outcome ⟨tag, verdict.termination, .ok ()⟩ = verdict.counter := by
  cases verdict <;> rfl

theorem TaskMove.booked {task : Task σ ν} {deed : Option (Deed σ ν)} {next : TaskPhase σ ν}
    {calls : List Call} {outcomes : List Counter}
    (move : TaskMove setup system task.delivery task.queue task.phase deed next)
    (booked : task.Booked calls outcomes) :
    Task.Booked (calls ++ (deed.bind Deed.call?).toList)
      (outcomes ++ task.phase.counter?.toList.filter Counter.isOutcome)
      { task with phase := next } := by
  obtain ⟨delivery, queue, puller, phase⟩ := task
  simp only [Task.Booked] at booked ⊢
  cases move with
  | settle _ =>
      obtain ⟨rfl, rfl⟩ := booked
      exact ⟨by simp [Deed.call?, Verdict.outcome], rfl⟩
  | refuse _ =>
      obtain ⟨rfl, rfl⟩ := booked
      exact ⟨rfl, rfl⟩
  | countSettled =>
      rename_i verdict
      obtain ⟨once, rfl⟩ := booked
      rw [Option.bind_none, Option.toList_none, List.append_nil, once]
      cases verdict <;> rfl
  | countRefused =>
      obtain ⟨once, rfl⟩ := booked
      rw [Option.bind_none, Option.toList_none, List.append_nil, once]
      rfl
  | recoverEscaped =>
      obtain ⟨rfl, rfl⟩ := booked
      rfl
  | _ => simpa [TaskPhase.counter?, Counter.isOutcome, Deed.call?] using booked

theorem Course.calls_eq_turns (setup : Setup σ) (course : Course σ ν) (index : Nat) :
    course.calls setup index =
      (course.turns index).filterMap fun system => (system.deed? setup index).bind Deed.call? := by
  rw [Course.calls, Course.deeds_eq_turns, List.filterMap_filterMap]

theorem Exposed.booked (noTasks : first.tasks = []) (exposed : Exposed setup first course system)
    {index : Nat} {task : Task σ ν} (found : system.tasks[index]? = some task) :
    task.Booked (course.calls setup index) (course.outcomes setup index) := by
  have tracked := exposed.forall_tasks
    (fun index turns task => task.Booked
      (turns.filterMap fun system => (system.deed? setup index).bind Deed.call?)
      (turns.flatMap fun system => (system.raised setup index).filter Counter.isOutcome)) noTasks
    (fun _ _ _ _ => ⟨rfl, rfl⟩) ?_
  · rw [Course.calls_eq_turns]
    exact tracked.known index task found
  · intro earlier before after doer mover next turns _ foundMover stepped move known
    have booked := move.booked known
    rw [List.filterMap_append, List.flatMap_append, List.flatMap_singleton,
      raised_eq foundMover stepped]
    cases called : (before.deed? setup doer).bind Deed.call? <;> simpa [called] using booked

theorem Exposed.called (returns : setup.recovery.Returns) (noTasks : first.tasks = [])
    (exposed : Exposed setup first course system) {index : Nat} {task : Task σ ν}
    (found : system.tasks[index]? = some task) : task.Called (course.deeds setup index) := by
  have tracked := exposed.forall_tasks
    (fun index turns task => task.Called (turns.filterMap (·.deed? setup index))) noTasks
    (fun _ _ _ _ => rfl) ?_
  · rw [Course.deeds_eq_turns]
    exact tracked.known index task found
  · intro earlier before after doer mover next turns _ _ _ move known
    have called := move.called returns known
    cases done : before.deed? setup doer <;> simpa [done] using called

end Consumer

end TaskQueue
