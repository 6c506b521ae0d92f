import TaskQueue.Proofs.Consumer.Exposed
import TaskQueue.Proofs.Consumer.Verdict
import TaskQueue.Proofs.Pool

/-!
The parameter objects of a consumer. An object is at hand or one task has it, and those at hand are
empty whatever was done with them before, so that a handler is given what its own delivery carries
and nothing else.
-/

namespace TaskQueue.Consumer

variable {σ ν : Type} {setup : Setup σ} {first system before after : State σ ν}
  {course : Course σ ν}

def Task.slot? (task : Task σ ν) : Option Nat := task.phase.lease?.map Lease.slot

def State.heldSlots (system : State σ ν) : List Nat := system.tasks.filterMap Task.slot?

def State.slots (system : State σ ν) : List Nat :=
  system.pool.free.map Lease.slot ++ system.heldSlots

structure State.Tidy (system : State σ ν) : Prop where
  clean : ∀ lease ∈ system.pool.free, lease.param = TaskParam.empty
  apart : system.slots.Nodup
  made : ∀ slot ∈ system.slots, slot < system.pool.made

namespace State.Tidy

theorem kept (tidy : before.Tidy) (pool : after.pool = before.pool)
    (held : after.heldSlots.Perm before.heldSlots) : after.Tidy := by
  have same : after.slots.Perm before.slots := by
    unfold slots
    rw [pool]
    exact held.append_left _
  refine ⟨?_, same.nodup_iff.mpr tidy.apart, ?_⟩
  · rw [pool]
    exact tidy.clean
  · intro slot taken
    rw [pool]
    exact tidy.made slot (same.mem_iff.mp taken)

theorem acquired (tidy : before.Tidy) (pool : after.pool = before.pool.acquire.2)
    (held : after.heldSlots.Perm (before.pool.acquire.1.slot :: before.heldSlots)) :
    after.Tidy := by
  obtain ⟨clean, apart, made⟩ := tidy
  have empty : after.pool.Clean := pool ▸ (Pool.Clean.acquire clean).2
  unfold slots at apart made
  unfold Pool.acquire at pool held
  cases free : before.pool.free with
  | nil =>
      simp only [free, List.map_nil, List.nil_append] at pool held apart made
      have same : after.slots.Perm (before.pool.made :: before.heldSlots) := by
        simpa [slots, pool, free] using held
      refine ⟨empty, ?_, ?_⟩
      · rw [same.nodup_iff, List.nodup_cons]
        exact ⟨fun taken => Nat.lt_irrefl _ (made _ taken), apart⟩
      · intro slot taken
        rw [pool]
        rcases List.mem_cons.mp (same.mem_iff.mp taken) with rfl | old
        · exact Nat.lt_succ_self _
        · exact Nat.lt_succ_of_lt (made slot old)
  | cons lease rest =>
      simp only [free, List.map_cons, List.cons_append] at pool held apart made
      have same : after.slots.Perm (lease.slot :: (rest.map Lease.slot ++ before.heldSlots)) := by
        unfold slots
        rw [pool]
        exact (held.append_left _).trans List.perm_middle
      refine ⟨empty, same.nodup_iff.mpr apart, ?_⟩
      intro slot taken
      rw [pool]
      exact made slot (same.mem_iff.mp taken)

theorem released {lease : Lease} (tidy : before.Tidy)
    (pool : after.pool = before.pool.release lease)
    (held : (lease.slot :: after.heldSlots).Perm before.heldSlots) : after.Tidy := by
  obtain ⟨clean, apart, made⟩ := tidy
  have empty : after.pool.Clean := pool ▸ Pool.Clean.release clean lease
  have all : (lease.slot :: (before.pool.free.map Lease.slot ++ after.heldSlots)).Perm
      before.slots := List.perm_middle.symm.trans (held.append_left _)
  have apartAll := all.nodup_iff.mpr apart
  unfold Pool.release at pool
  by_cases room : before.pool.idle < before.pool.capacity
  · rw [if_pos room] at pool
    have same : after.slots =
        lease.slot :: (before.pool.free.map Lease.slot ++ after.heldSlots) := by
      simp [slots, pool]
    refine ⟨empty, same ▸ apartAll, ?_⟩
    intro slot taken
    rw [pool]
    rw [same] at taken
    exact made slot (all.mem_iff.mp taken)
  · rw [if_neg room] at pool
    have same : after.slots = before.pool.free.map Lease.slot ++ after.heldSlots := by
      simp [slots, pool]
    refine ⟨empty, same ▸ (List.nodup_cons.mp apartAll).2, ?_⟩
    intro slot taken
    rw [pool]
    rw [same] at taken
    exact made slot (all.mem_iff.mp (List.mem_cons_of_mem _ taken))

theorem step_task {index : Nat} {task : Task σ ν} {next : TaskPhase σ ν}
    {deed : Option (Deed σ ν)} (tidy : before.Tidy) (found : before.tasks[index]? = some task)
    (move : TaskMove setup before task.delivery task.queue task.phase deed next)
    (moved : after.tasks = before.tasks.modify index fun task => { task with phase := next })
    (effect : TaskEffect setup before after task.phase) : after.Tidy := by
  obtain ⟨delivery, queue, puller, phase⟩ := task
  have held := filterMap_modify_perm (fun task => { task with phase := next })
    Task.slot? found
  rw [← moved, ← heldSlots, ← heldSlots] at held
  simp only [Task.slot?] at held
  have pool := effect.pool
  cases move with
  | borrow => exact tidy.acquired pool held
  | succeed | fail | drop | unwind => exact tidy.released pool held
  | _ =>
      refine tidy.kept pool ?_
      simpa [TaskPhase.lease?, Item.filled] using held

end State.Tidy

theorem heldSlots_born (phase : LoopPhase) (queue : String) (index : Nat) :
    (phase.born queue index : List (Task σ ν)).filterMap Task.slot? = [] := by
  cases phase <;> rfl

theorem Exposed.tidy (noTasks : first.tasks = []) (noObjects : first.pool.free = [])
    (exposed : Exposed setup first course system) : system.Tidy := by
  induction exposed with
  | start =>
      have none : first.slots = [] := by simp [State.slots, State.heldSlots, noTasks, noObjects]
      refine ⟨by simp [noObjects], by simp [none], by simp [none]⟩
  | step _ stepped ih =>
      cases State.step_stepped stepped with
      | task found _ move moved _ effect => exact ih.step_task found move moved effect
      | loop _ _ _ _ born _ effect =>
          refine ih.kept effect.pool ?_
          unfold State.heldSlots
          rw [born, List.filterMap_append, heldSlots_born, List.append_nil]
      | outside _ _ frame effect =>
          refine ih.kept effect.pool ?_
          unfold State.heldSlots
          rw [frame.tasks]
  | elsewhere broker now _ ih => exact ⟨ih.clean, ih.apart, ih.made⟩

/-- What a delivery carries: its body decoded into an empty parameter. -/
def Setup.Carries (setup : Setup σ) (delivery : Delivery) (param : TaskParam) : Prop :=
  ∃ envelope, setup.unpack delivery = .done envelope ∧
    Payload.decodeTask envelope.payload TaskParam.empty = (.ok (), param)

def Task.Separate (setup : Setup σ) (task : Task σ ν) : Prop :=
  match task.phase with
  | .unpacked envelope => setup.unpack task.delivery = .done envelope
  | .borrowed item =>
      setup.unpack task.delivery = .done item.envelope ∧ item.lease.param = TaskParam.empty
  | .decoded item | .checked item => setup.Carries task.delivery item.lease.param
  | _ => True

def Task.Given (setup : Setup σ) (deeds : List (Deed σ ν)) (task : Task σ ν) : Prop :=
  ∀ invocation ∈ deeds.filterMap Deed.invocation?, setup.Carries task.delivery invocation.param

theorem TaskMove.separate {task : Task σ ν} {deed : Option (Deed σ ν)} {next : TaskPhase σ ν}
    (json : setup.format = Payload.Format.json) (tidy : system.Tidy)
    (move : TaskMove setup system task.delivery task.queue task.phase deed next)
    (separate : task.Separate setup) : Task.Separate setup { task with phase := next } := by
  obtain ⟨delivery, queue, puller, phase⟩ := task
  simp only [Task.Separate] at separate ⊢
  cases move with
  | unpack unpacked => exact unpacked
  | borrow => exact ⟨separate, (Pool.Clean.acquire tidy.clean).1⟩
  | decode decoded =>
      obtain ⟨unpacked, empty⟩ := separate
      rw [json, empty, json_eq_done] at decoded
      exact ⟨_, unpacked, decoded⟩
  | check _ => exact separate
  | _ => trivial

theorem TaskMove.given {task : Task σ ν} {deed : Option (Deed σ ν)} {next : TaskPhase σ ν}
    {deeds : List (Deed σ ν)}
    (move : TaskMove setup system task.delivery task.queue task.phase deed next)
    (separate : task.Separate setup) (given : task.Given setup deeds) :
    Task.Given setup (deeds ++ deed.toList) { task with phase := next } := by
  obtain ⟨delivery, queue, puller, phase⟩ := task
  simp only [Task.Separate] at separate
  unfold Task.Given at given ⊢
  rw [List.filterMap_append]
  cases move with
  | invoke _ =>
      intro invocation taken
      rcases List.mem_append.mp taken with old | new
      · exact given invocation old
      · simp only [Option.toList_some, Deed.invocation?, List.filterMap_cons, List.filterMap_nil,
          List.mem_singleton] at new
        subst invocation
        exact separate
  | _ => simpa [Deed.invocation?] using given

theorem Exposed.given (json : setup.format = Payload.Format.json) (noTasks : first.tasks = [])
    (noObjects : first.pool.free = []) (exposed : Exposed setup first course system) {index : Nat}
    {task : Task σ ν} (found : system.tasks[index]? = some task) :
    task.Given setup (course.deeds setup index) := by
  have tracked := exposed.forall_tasks
    (fun index turns task => task.Separate setup ∧
      task.Given setup (turns.filterMap (·.deed? setup index))) noTasks
    (fun _ _ _ _ => ⟨trivial, by simp [Task.Given]⟩) ?_
  · rw [Course.deeds_eq_turns]
    exact (tracked.known index task found).2
  · intro earlier before after doer mover next turns reached _ _ move known
    refine ⟨move.separate json (reached.tidy noTasks noObjects) known.1, ?_⟩
    have given := move.given known.1 known.2
    cases done : before.deed? setup doer <;> simpa [done] using given

end TaskQueue.Consumer
