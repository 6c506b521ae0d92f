import TaskQueue.Proofs.Consumer.Steps

/-! What holds of every task of a run. A fact about a task and its deeds needs to hold of a task
that is new and to be kept by the moves of tasks; loops, callers and the clock do not touch it. -/

namespace TaskQueue.Consumer

variable {σ ν : Type} {setup : Setup σ} {first system : State σ ν} {course : Course σ ν}

theorem LoopPhase.mem_born {phase : LoopPhase} {queue : String} {index : Nat} {task : Task σ ν}
    (born : task ∈ phase.born queue index) :
    ∃ delivery, task = ⟨delivery, queue, index, .fresh⟩ := by
  cases phase <;> simp only [LoopPhase.born, List.not_mem_nil, List.mem_singleton] at born
  exact ⟨_, born⟩

theorem getElem?_append_born {tasks : List (Task σ ν)} {phase : LoopPhase} {queue : String}
    {puller index : Nat} {task : Task σ ν}
    (found : (tasks ++ phase.born queue puller)[index]? = some task) :
    tasks[index]? = some task ∨
      tasks.length ≤ index ∧ ∃ delivery, task = ⟨delivery, queue, puller, .fresh⟩ := by
  by_cases old : index < tasks.length
  · rw [List.getElem?_append_left old] at found
    exact Or.inl found
  · rw [List.getElem?_append_right (Nat.le_of_not_lt old)] at found
    exact Or.inr ⟨Nat.le_of_not_lt old, LoopPhase.mem_born (List.mem_of_getElem? found)⟩

theorem TaskFrame.mem_loops {before after : State σ ν} {deed : Option (Deed σ ν)} {loop : Loop}
    (frame : TaskFrame before after deed) (taken : loop ∈ after.loops) :
    loop ∈ before.loops ∨ ∃ known ∈ before.loops, loop = known.grant := by
  rcases frame.loops with same | ⟨granted, grants⟩
  · rw [same] at taken
    exact Or.inl taken
  · rw [grants] at taken
    rcases mem_modify taken with old | ⟨known, found, changed⟩
    · exact Or.inl old
    · exact Or.inr ⟨known, List.mem_of_getElem? found, changed⟩

theorem OutsideFrame.mem_loops {before after : State σ ν} {event : Event σ ν} {loop : Loop}
    (frame : OutsideFrame before after event) (taken : loop ∈ after.loops) :
    loop ∈ before.loops ∨ ∃ queue ∈ before.callers.map Caller.queue, loop = ⟨queue, .top⟩ := by
  rcases frame.loops with same | ⟨queue, asked, added⟩
  · rw [same] at taken
    exact Or.inl taken
  · rw [added, List.mem_append, List.mem_singleton] at taken
    rcases taken with old | new
    · exact Or.inl old
    · exact Or.inr ⟨queue, asked, new⟩

theorem TaskFrame.flatMap_loops {α : Type} {before after : State σ ν} {deed : Option (Deed σ ν)}
    (frame : TaskFrame before after deed) (pick : LoopPhase → List α)
    (same : ∀ stream delivery,
      pick (.starting stream delivery) = pick (.waiting stream delivery)) :
    (after.loops.flatMap fun loop => pick loop.phase) =
      before.loops.flatMap fun loop => pick loop.phase := by
  rcases frame.loops with unchanged | ⟨granted, grants⟩
  · rw [unchanged]
  · rw [grants]
    exact flatMap_modify _ _ (Loop.grant_same pick same)

theorem OutsideFrame.flatMap_loops {α : Type} {before after : State σ ν} {event : Event σ ν}
    (frame : OutsideFrame before after event) (pick : LoopPhase → List α)
    (nothing : pick .top = []) :
    (after.loops.flatMap fun loop => pick loop.phase) =
      before.loops.flatMap fun loop => pick loop.phase := by
  rcases frame.loops with unchanged | ⟨queue, _, added⟩
  · rw [unchanged]
  · rw [added, List.flatMap_append, List.flatMap_singleton, nothing, List.append_nil]

structure Tracked (fact : Nat → List (State σ ν) → Task σ ν → Prop) (course : Course σ ν)
    (system : State σ ν) : Prop where
  known : ∀ index task, system.tasks[index]? = some task → fact index (course.turns index) task
  unknown : ∀ index, system.tasks.length ≤ index → course.turns index = []

theorem Tracked.start {fact : Nat → List (State σ ν) → Task σ ν → Prop}
    (noTasks : first.tasks = []) : Tracked fact [] first := by
  refine ⟨?_, fun _ _ => rfl⟩
  intro index task found
  simp [noTasks] at found

theorem Tracked.step {fact : Nat → List (State σ ν) → Task σ ν → Prop} {before after : State σ ν}
    {event : Event σ ν} (tracked : Tracked fact course before)
    (fresh : ∀ index delivery queue puller, fact index [] ⟨delivery, queue, puller, .fresh⟩)
    (moves : ∀ index task next turns,
      before.tasks[index]? = some task → before.stepTask setup index = some after →
      TaskMove setup before task.delivery task.queue task.phase (before.deed? setup index) next →
      fact index turns task → fact index (turns ++ [before]) { task with phase := next })
    (stepped : before.step setup event = some after) :
    Tracked fact (course ++ [(before, event)]) after := by
  obtain ⟨known, unknown⟩ := tracked
  cases State.step_moved stepped with
  | task found move moved frame =>
      rename_i doer mover next
      constructor
      · intro index task foundAfter
        rw [moved, List.getElem?_modify] at foundAfter
        by_cases same : doer = index
        · subst index
          simp only [if_true, found, Option.map_eq_map, Option.map_some,
            Option.some.injEq] at foundAfter
          subst task
          rw [Course.turns_task]
          exact moves doer mover next _ found stepped move (known doer mover found)
        · simp only [if_neg same, id_map'] at foundAfter
          rw [Course.turns_else fun equal => same (Event.task.inj equal)]
          exact known index task foundAfter
      · intro index beyond
        rw [moved, List.length_modify] at beyond
        have bound : doer < before.tasks.length := (List.getElem?_eq_some_iff.mp found).1
        have notSame : doer ≠ index := by omega
        rw [Course.turns_else fun equal => notSame (Event.task.inj equal)]
        exact unknown index beyond
  | loop _ _ _ _ born _ =>
      constructor
      · intro index task foundAfter
        rw [born] at foundAfter
        rw [Course.turns_loop]
        rcases getElem?_append_born foundAfter with found | ⟨beyond, delivery, rfl⟩
        · exact known index task found
        · rw [unknown index beyond]
          exact fresh _ _ _ _
      · intro index beyond
        rw [born, List.length_append] at beyond
        rw [Course.turns_loop]
        exact unknown index (by omega)
  | outside notTask _ frame =>
      constructor
      · intro index task found
        rw [frame.tasks] at found
        rw [Course.turns_else (notTask index)]
        exact known index task found
      · intro index beyond
        rw [frame.tasks] at beyond
        rw [Course.turns_else (notTask index)]
        exact unknown index beyond

/-- A fact that new tasks have and that moves keep is had by all tasks of a run. -/
theorem Run.forall_tasks (fact : List (Deed σ ν) → Task σ ν → Prop) (noTasks : first.tasks = [])
    (fresh : ∀ delivery queue puller, fact [] ⟨delivery, queue, puller, .fresh⟩)
    (moves : ∀ (before : State σ ν) (index : Nat) (task : Task σ ν) deed next deeds,
      before.tasks[index]? = some task →
      TaskMove setup before task.delivery task.queue task.phase deed next →
      fact deeds task → fact (deeds ++ deed.toList) { task with phase := next })
    (run : Run setup first course system) :
    (∀ index task, system.tasks[index]? = some task → fact (course.deeds setup index) task) ∧
      ∀ index, system.tasks.length ≤ index → course.deeds setup index = [] := by
  have tracked : Tracked (fun index turns task =>
      fact (turns.filterMap (·.deed? setup index)) task) course system := by
    induction run with
    | start => exact Tracked.start noTasks
    | step run stepped ih =>
        rename_i course before after event
        refine ih.step (fun _ => fresh) ?_ stepped
        intro index task next turns found _ move known
        have kept := moves before index task _ next _ found move known
        cases done : before.deed? setup index <;> simpa [done] using kept
  constructor
  · intro index task found
    rw [Course.deeds_eq_turns]
    exact tracked.known index task found
  · intro index beyond
    rw [Course.deeds_eq_turns, tracked.unknown index beyond]
    rfl

theorem Run.deeds_unknown (noTasks : first.tasks = []) (run : Run setup first course system)
    {index : Nat} (beyond : system.tasks.length ≤ index) : course.deeds setup index = [] :=
  (run.forall_tasks (fun _ _ => True) noTasks (fun _ _ _ => trivial)
    fun _ _ _ _ _ _ _ _ _ => trivial).2 index beyond

def Happening.deed? : Happening σ ν → Option (Nat × Deed σ ν)
  | .task index deed => some (index, deed)
  | _ => none

/-- What all tasks did, each deed with its task, in order. -/
def Course.doings (setup : Setup σ) (course : Course σ ν) : List (Nat × Deed σ ν) :=
  course.gather Happening.deed? setup

theorem Course.deeds_eq_doings (setup : Setup σ) (course : Course σ ν) (index : Nat) :
    course.deeds setup index = (course.doings setup).filterMap fun doing =>
      if doing.1 = index then some doing.2 else none := by
  unfold deeds doings gather
  rw [List.filterMap_filterMap]
  congr 1
  funext happening
  cases happening <;> rfl

namespace Course

variable {event : Event σ ν} {index : Nat}

theorem mem_deeds {deed : Deed σ ν} :
    deed ∈ course.deeds setup index ↔ (index, deed) ∈ course.doings setup := by
  rw [deeds_eq_doings, List.mem_filterMap]
  constructor
  · rintro ⟨⟨doer, done⟩, taken, picked⟩
    simp only [Option.ite_none_right_eq_some, Option.some.injEq] at picked
    obtain ⟨rfl, rfl⟩ := picked
    exact taken
  · exact fun taken => ⟨_, taken, by simp⟩

theorem doings_task : (course ++ [(system, Event.task index)]).doings setup =
    course.doings setup ++ (system.deed? setup index).toList.map (index, ·) := by
  unfold doings
  rw [gather_append]
  cases done : system.deed? setup index <;> simp [State.happening?, done, Happening.deed?]

theorem doings_else (notTask : ∀ index, event ≠ .task index) :
    (course ++ [(system, event)]).doings setup = course.doings setup := by
  apply gather_append_none
  cases event with
  | task index => exact absurd rfl (notTask index)
  | loop puller heed =>
      cases pulled : system.pull? puller heed <;>
        simp [State.happening?, pulled, Happening.deed?]
  | _ => rfl

theorem deeds_task : (course ++ [(system, Event.task index)]).deeds setup index =
    course.deeds setup index ++ (system.deed? setup index).toList := by
  rw [deeds_eq_turns, deeds_eq_turns, turns_task, List.filterMap_append]
  cases done : system.deed? setup index <;> simp [done]

theorem deeds_else (other : event ≠ .task index) :
    (course ++ [(system, event)]).deeds setup index = course.deeds setup index := by
  rw [deeds_eq_turns, deeds_eq_turns, turns_else other]

end Course

theorem Run.doings_perm (noTasks : first.tasks = []) (run : Run setup first course system) :
    ((course.doings setup).map Prod.snd).Perm
      ((List.range system.tasks.length).flatMap (course.deeds setup)) := by
  have deeds : course.deeds setup = fun index => (course.doings setup).filterMap fun doing =>
      if doing.1 = index then some doing.2 else none :=
    funext fun index => course.deeds_eq_doings setup index
  rw [deeds]
  apply perm_flatMap_range
  rintro ⟨index, deed⟩ taken
  by_cases below : index < system.tasks.length
  · exact below
  · have nothing := run.deeds_unknown noTasks (Nat.le_of_not_lt below)
    rw [Course.deeds_eq_doings, List.filterMap_eq_nil_iff] at nothing
    simpa using nothing _ taken

theorem Run.mem_deeds (run : Run setup first course system) {index : Nat} {deed : Deed σ ν}
    (done : deed ∈ course.deeds setup index) :
    ∃ before task next, (before, Event.task index) ∈ course ∧ before.tasks[index]? = some task ∧
      TaskMove setup before task.delivery task.queue task.phase (some deed) next := by
  obtain ⟨⟨before, event⟩, taken, happening, happened, picked⟩ := Course.mem_gather.mp done
  cases event with
  | task doer =>
      obtain ⟨other, did, rfl⟩ := Option.map_eq_some_iff.mp happened
      simp only [Happening.deedOf?, Option.ite_none_right_eq_some, Option.some.injEq] at picked
      obtain ⟨rfl, rfl⟩ := picked
      obtain ⟨after, stepped⟩ := Trail.step_of_mem run taken
      cases State.step_moved stepped with
      | task found move _ _ =>
          rw [did] at move
          exact ⟨before, _, _, taken, found, move⟩
      | outside notTask _ _ => exact absurd rfl (notTask doer)
  | loop puller heed =>
      obtain ⟨pulled, _, rfl⟩ := Option.map_eq_some_iff.mp happened
      simp [Happening.deedOf?] at picked
  | publish queue messageId body | publishTask ids queue param =>
      obtain rfl := Option.some.inj happened
      simp [Happening.deedOf?] at picked
  | _ => simp [State.happening?] at happened

@[simp] theorem Loop.grant_queue (loop : Loop) : loop.grant.queue = loop.queue := by
  unfold Loop.grant
  split <;> rfl

theorem getElem?_modify_queue {loops : List Loop} {change : Loop → Loop} (changed : Nat)
    (keeps : ∀ loop, (change loop).queue = loop.queue) {index : Nat} {loop : Loop}
    (found : loops[index]? = some loop) :
    ∃ later, (loops.modify changed change)[index]? = some later ∧ later.queue = loop.queue := by
  rw [List.getElem?_modify, found]
  by_cases same : changed = index
  · exact ⟨change loop, by simp [same], keeps loop⟩
  · exact ⟨loop, by simp [same], rfl⟩

theorem Moved.loop_queue {before after : State σ ν} {event : Event σ ν}
    (moved : Moved setup before after event) {index : Nat} {loop : Loop}
    (found : before.loops[index]? = some loop) :
    ∃ later, after.loops[index]? = some later ∧ later.queue = loop.queue := by
  cases moved with
  | task _ _ _ frame =>
      rcases frame.loops with same | ⟨granted, modified⟩
      · rw [same]
        exact ⟨loop, found, rfl⟩
      · rw [modified]
        exact getElem?_modify_queue granted Loop.grant_queue found
  | loop _ _ _ modified _ _ =>
      rw [modified]
      refine getElem?_modify_queue _ ?_ found
      intro other
      rfl
  | outside _ _ frame =>
      rcases frame.loops with same | ⟨queue, _, added⟩
      · rw [same]
        exact ⟨loop, found, rfl⟩
      · rw [added, List.getElem?_append_left (List.getElem?_eq_some_iff.mp found).1]
        exact ⟨loop, found, rfl⟩

structure State.Subscribed (system : State σ ν) : Prop where
  loops : ∀ loop ∈ system.loops, loop.queue ∈ system.callers.map Caller.queue
  tasks : ∀ task ∈ system.tasks, ∃ loop, system.loops[task.puller]? = some loop ∧
    loop.queue = task.queue

theorem State.Subscribed.step {before after : State σ ν} (subscribed : before.Subscribed)
    (moved : Moved setup before after event) : after.Subscribed := by
  have kept : ∀ task : Task σ ν, (∃ loop, before.loops[task.puller]? = some loop ∧
      loop.queue = task.queue) →
      ∃ loop, after.loops[task.puller]? = some loop ∧ loop.queue = task.queue := by
    rintro task ⟨loop, found, same⟩
    obtain ⟨later, foundLater, sameLater⟩ := moved.loop_queue found
    exact ⟨later, foundLater, sameLater.trans same⟩
  cases moved with
  | task found move modified frame =>
      constructor
      · intro loop taken
        rw [frame.callers]
        rcases frame.mem_loops taken with old | ⟨known, old, rfl⟩
        · exact subscribed.loops loop old
        · rw [known.grant_queue]
          exact subscribed.loops known old
      · intro task taken
        rw [modified] at taken
        rcases mem_modify taken with old | ⟨known, foundKnown, rfl⟩
        · exact kept task (subscribed.tasks task old)
        · exact kept known (subscribed.tasks known (List.mem_of_getElem? foundKnown))
  | loop found pull move modified born frame =>
      constructor
      · intro other taken
        rw [frame.callers]
        rw [modified] at taken
        rcases mem_modify taken with old | ⟨known, foundKnown, rfl⟩
        · exact subscribed.loops other old
        · exact subscribed.loops known (List.mem_of_getElem? foundKnown)
      · intro task taken
        rw [born, List.mem_append] at taken
        rcases taken with old | fresh
        · exact kept task (subscribed.tasks task old)
        · obtain ⟨delivery, rfl⟩ := LoopPhase.mem_born fresh
          exact kept _ ⟨_, found, rfl⟩
  | outside _ _ frame =>
      constructor
      · intro loop taken
        rcases frame.mem_loops taken with old | ⟨queue, asked, rfl⟩
        · exact frame.callers (subscribed.loops loop old)
        · exact frame.callers asked
      · intro task taken
        rw [frame.tasks] at taken
        exact kept task (subscribed.tasks task taken)

theorem Run.subscribed (noTasks : first.tasks = []) (noLoops : first.loops = [])
    (run : Run setup first course system) : system.Subscribed := by
  induction run with
  | start =>
      constructor
      · simp [noLoops]
      · simp [noTasks]
  | step _ stepped ih => exact ih.step (State.step_moved stepped)

end TaskQueue.Consumer
