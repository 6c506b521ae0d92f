import Mathlib.Data.List.Basic
import TaskQueue.Proofs.Consumer.Attempts
import TaskQueue.Proofs.Consumer.Drain
import TaskQueue.Proofs.Consumer.Labels
import TaskQueue.Proofs.Consumer.Passage
import TaskQueue.Proofs.Consumer.Permits

/-!
A consumer with one permit deals with its deliveries one after another. The loop runs ahead by one
delivery, but the task of that delivery does not begin before the task of the one before has left;
so while a task is at work nobody else touches what handlers share, and what all tasks do is what a
plain loop over the deliveries would do.
-/

namespace TaskQueue

namespace Consumer

variable {σ ν : Type} {setup : Setup σ} {first system before after : State σ ν}
  {course : Course σ ν} {event : Event σ ν} {start : World σ}

/-- Deliveries are dealt with in turn, each in the world that the one before it left. -/
inductive Served (setup : Setup σ) (start : World σ) :
    List (String × Delivery) → List (Deed σ ν) → World σ → Prop
  | nothing {world : World σ} : Drift.still.allows start world → Served setup start [] [] world
  | next {labels : List (String × Delivery)} {queue : String} {delivery : Delivery}
      {deeds more : List (Deed σ ν)} {middle last : World σ} :
      Served setup start labels deeds middle →
      Ended setup .still delivery queue middle more last →
      Served setup start (labels ++ [(queue, delivery)]) (deeds ++ more) last

theorem Passage.decided {drift : Drift σ} {delivery : Delivery} {queue : String}
    {last : World σ} {deeds : List (Deed σ ν)} {verdict : Option Verdict}
    (returns : setup.recovery.Returns)
    (passage : Passage setup drift delivery queue start deeds verdict last) :
    ∃ decided, verdict = some decided := by
  cases passage with
  | refused _ _ | unhandled _ _ => exact ⟨_, rfl⟩
  | broke _ caught => exact ⟨_, (caught.of_returns returns).2⟩
  | invoked _ _ _ tended =>
      cases tended with
      | returned _ | overran _ | panicked _ => exact ⟨_, rfl⟩
      | unwound _ caught => exact ⟨_, (caught.of_returns returns).2⟩

theorem Task.Passing.exists_ended {world : World σ} {deeds : List (Deed σ ν)} {task : Task σ ν}
    (returns : setup.recovery.Returns) (passing : task.Passing setup .still start world deeds) :
    ∃ more last, Ended setup .still task.delivery task.queue start (deeds ++ more) last ∧
      (task.phase.isFinished = true → more = [] ∧ last = world) := by
  have cancels (world : World σ) : Drift.still.allows world world.cancel := ⟨rfl, fun _ => rfl⟩
  rcases passing.ends cancels with ended | ⟨more, verdict, last, passage, ends⟩
  · exact ⟨[], world, by rwa [List.append_nil], fun _ => ⟨rfl, rfl⟩⟩
  · obtain ⟨decided, rfl⟩ := passage.decided returns
    refine ⟨more ++ [.called ⟨task.delivery.tag, decided.termination, .ok ()⟩], last, ?_, ?_⟩
    · exact ⟨deeds ++ more, decided, .ok (), passage, (List.append_assoc _ _ _).symm⟩
    · intro finished
      cases (ends finished).2.1

theorem LoopMove.unbroken {heed : Bool} {queue : String} {phase next : LoopPhase}
    {pulled : Option Delivery} {broker : Broker} (holds : setup.transport.Holds)
    (move : LoopMove setup system heed queue phase pulled next broker) (cause : Panic) :
    next ≠ .crashed cause := by
  cases move with
  | crash _ broken =>
      rw [holds queue] at broken
      simp at broken
  | openFailed _ _ =>
      unfold LoopPhase.paused
      split <;> exact nofun
  | ended _ =>
      split
      · exact nofun
      · unfold LoopPhase.paused
        split <;> exact nofun
  | giveWay => split <;> exact nofun
  | _ => exact nofun

theorem Run.unbroken (holds : setup.transport.Holds) (noLoops : first.loops = [])
    (run : Run setup first course system) :
    ∀ loop ∈ system.loops, ∀ cause, loop.phase ≠ .crashed cause := by
  induction run with
  | start => simp [noLoops]
  | step _ stepped ih =>
      intro loop taken
      cases State.step_moved stepped with
      | task _ _ _ frame =>
          rcases frame.mem_loops taken with old | ⟨known, old, rfl⟩
          · exact ih loop old
          · intro cause
            unfold Loop.grant
            split
            · exact nofun
            · exact ih known old cause
      | loop found _ move moved _ _ =>
          rw [moved] at taken
          rcases mem_modify taken with old | ⟨known, _, rfl⟩
          · exact ih loop old
          · exact move.unbroken holds
      | outside _ _ frame =>
          rcases frame.mem_loops taken with old | ⟨_, _, rfl⟩
          · exact ih loop old
          · exact fun _ => nofun

/-- Loops, callers and the clock do not touch what handlers share; they can cancel. -/
theorem State.step_still (unbroken : ∀ loop ∈ before.loops, ∀ cause, loop.phase ≠ .crashed cause)
    (notTask : ∀ index, event ≠ .task index) (stepped : before.step setup event = some after) :
    Drift.still.allows before.world after.world := by
  cases State.step_stepped stepped with
  | task _ _ _ _ _ _ => exact absurd rfl (notTask _)
  | loop found _ _ _ _ _ effect =>
      refine ⟨?_, effect.cancelled.trans⟩
      exact effect.shared (unbroken _ (List.mem_of_getElem? found))
  | outside _ _ _ effect => exact ⟨effect.shared, effect.cancelled⟩

theorem Task.finished_of_called {deeds : List (Deed σ ν)} {task : Task σ ν}
    (called : task.Called deeds) (without : task.hasPermit = false) :
    task.phase.isFinished = true := by
  obtain ⟨delivery, queue, puller, phase⟩ := task
  cases phase with
  | finished => rfl
  | uncaught _ => exact called.elim
  | _ => simp [hasPermit, TaskPhase.hasPermit] at without

theorem Run.finished_of_starting (returns : setup.recovery.Returns)
    (present : first.permits = some ⟨1, []⟩) (noTasks : first.tasks = [])
    (noLoops : first.loops = []) (run : Run setup first course system) {loop : Loop}
    (taken : loop ∈ system.loops) (starts : loop.hasPermit = true) :
    ∀ task ∈ system.tasks, task.phase.isFinished = true := by
  obtain ⟨permits, licensed⟩ := run.exposed.exists_licensed present noTasks noLoops
  have whole := licensed.whole
  have some : 0 < system.loops.countP Loop.hasPermit :=
    List.countP_pos_iff.mpr ⟨loop, taken, starts⟩
  have none : system.tasks.countP Task.hasPermit = 0 := by omega
  intro task known
  obtain ⟨index, found⟩ := List.mem_iff_getElem?.mp known
  have without : task.hasPermit = false := by
    simpa using List.countP_eq_zero.mp none task known
  exact Task.finished_of_called (run.called returns noTasks found) without

/-- All tasks but the last have finished and been served in turn, and the last is on its way. -/
inductive Serving (setup : Setup σ) (start : World σ) (course : Course σ ν) (system : State σ ν) :
    Prop
  | fresh : system.tasks = [] → course.doings setup = [] →
      Drift.still.allows start system.world → Serving setup start course system
  | busy {earlier : List (Task σ ν)} {current : Task σ ν} {deeds : List (Deed σ ν)}
      {middle : World σ} : system.tasks = earlier ++ [current] →
      (∀ task ∈ earlier, task.phase.isFinished = true) →
      Served setup start (earlier.map Task.label) deeds middle →
      current.Passing setup .still middle system.world (course.deeds setup earlier.length) →
      (course.doings setup).map Prod.snd = deeds ++ course.deeds setup earlier.length →
      Serving setup start course system

namespace Serving

theorem exists_served (returns : setup.recovery.Returns)
    (serving : Serving setup start course system) :
    ∃ more last, Served setup start (system.tasks.map Task.label)
        ((course.doings setup).map Prod.snd ++ more) last ∧
      ((∀ task ∈ system.tasks, task.phase.isFinished = true) →
        more = [] ∧ last = system.world) := by
  cases serving with
  | fresh noTasks nothing drifts =>
      rw [noTasks, nothing]
      exact ⟨[], system.world, .nothing drifts, fun _ => ⟨rfl, rfl⟩⟩
  | busy tasks finished served passing whole =>
      obtain ⟨more, last, ended, complete⟩ := passing.exists_ended returns
      refine ⟨more, last, ?_, ?_⟩
      · rw [tasks, whole, List.map_append, List.append_assoc]
        exact .next served ended
      · intro all
        apply complete
        apply all
        rw [tasks]
        exact List.mem_append_right _ (List.mem_singleton_self _)

theorem others (serving : Serving setup start course before)
    (unbroken : ∀ loop ∈ before.loops, ∀ cause, loop.phase ≠ .crashed cause)
    (notTask : ∀ index, event ≠ .task index) (stepped : before.step setup event = some after)
    (tasks : after.tasks = before.tasks) :
    Serving setup start (course ++ [(before, event)]) after := by
  have still := State.step_still unbroken notTask stepped
  have doings : (course ++ [(before, event)]).doings setup = course.doings setup :=
    Course.doings_else notTask
  cases serving with
  | fresh noTasks nothing drifts =>
      exact .fresh (tasks.trans noTasks) (doings.trans nothing) (Drift.still.trans drifts still)
  | busy parts finished served passing whole =>
      rename_i earlier current deeds middle
      have same : (course ++ [(before, event)]).deeds setup earlier.length =
          course.deeds setup earlier.length := Course.deeds_else (notTask earlier.length)
      refine .busy (tasks.trans parts) finished served ?_ ?_
      · rw [same]
        exact passing.drift_last still
      · rw [doings, same, whole]

theorem born {puller : Nat} {delivery : Delivery} {queue : String} {heed : Bool}
    (returns : setup.recovery.Returns) (serving : Serving setup start course before)
    (finished : ∀ task ∈ before.tasks, task.phase.isFinished = true)
    (unknown : course.deeds setup before.tasks.length = [])
    (still : Drift.still.allows before.world after.world)
    (tasks : after.tasks = before.tasks ++ [⟨delivery, queue, puller, .fresh⟩]) :
    Serving setup start (course ++ [(before, .loop puller heed)]) after := by
  obtain ⟨more, last, served, complete⟩ := serving.exists_served returns
  obtain ⟨rfl, rfl⟩ := complete finished
  rw [List.append_nil] at served
  have doings : (course ++ [(before, Event.loop puller heed)]).doings setup =
      course.doings setup := Course.doings_else fun _ same => by cases same
  have nothing : (course ++ [(before, Event.loop puller heed)]).deeds setup before.tasks.length =
      [] := (Course.deeds_else fun same => by cases same).trans unknown
  refine .busy tasks finished served ?_ ?_
  · rw [nothing]
    exact ⟨rfl, still⟩
  · rw [nothing, doings, List.append_nil]

theorem alone {index : Nat} {task : Task σ ν} (serving : Serving setup start course system)
    (found : system.tasks[index]? = some task) (unfinished : task.phase.isFinished = false) :
    ∃ earlier : List (Task σ ν), system.tasks = earlier ++ [task] ∧ index = earlier.length ∧
      ∀ other ∈ earlier, other.phase.isFinished = true := by
  cases serving with
  | fresh noTasks _ _ => simp [noTasks] at found
  | busy parts finished served passing whole =>
      rename_i earlier current deeds middle
      rw [parts] at found
      by_cases old : index < earlier.length
      · rw [List.getElem?_append_left old] at found
        rw [finished task (List.mem_of_getElem? found)] at unfinished
        cases unfinished
      · rw [List.getElem?_append_right (Nat.le_of_not_lt old), List.getElem?_singleton,
          Option.ite_none_right_eq_some] at found
        obtain ⟨last, same⟩ := found
        obtain rfl := Option.some.inj same
        exact ⟨earlier, parts, by omega, finished⟩

theorem task {index : Nat} {task : Task σ ν} {next : TaskPhase σ ν} (tidy : before.Tidy)
    (serving : Serving setup start course before) (found : before.tasks[index]? = some task)
    (move : TaskMove setup before task.delivery task.queue task.phase
      (before.deed? setup index) next)
    (moved : after.tasks = before.tasks.modify index fun task => { task with phase := next })
    (effect : TaskEffect setup before after task.phase) :
    Serving setup start (course ++ [(before, .task index)]) after := by
  obtain ⟨others, split, place, _⟩ := serving.alone found move.not_finished
  cases serving with
  | fresh noTasks _ _ => simp [noTasks] at found
  | busy parts finished served passing whole =>
      rename_i earlier current deeds middle
      obtain ⟨rfl, same⟩ := List.append_inj' (split.symm.trans parts) rfl
      obtain rfl : task = current := by simpa using same
      subst index
      have kept := move.passing tidy passing
      rw [← effect.world, ← Course.deeds_task] at kept
      rw [parts, modify_concat] at moved
      refine .busy moved finished served kept ?_
      rw [Course.doings_task, Course.deeds_task, List.map_append, whole, List.append_assoc]
      congr 2
      cases before.deed? setup others.length <;> rfl

end Serving

theorem Run.serving (returns : setup.recovery.Returns) (holds : setup.transport.Holds)
    (present : first.permits = some ⟨1, []⟩) (noTasks : first.tasks = [])
    (noLoops : first.loops = []) (noObjects : first.pool.free = [])
    (run : Run setup first course system) : Serving setup first.world course system := by
  induction run with
  | start => exact .fresh noTasks rfl (Drift.still.refl _)
  | step run stepped ih =>
      rename_i course before after event
      have unbroken := run.unbroken holds noLoops
      cases State.step_stepped stepped with
      | task found _ move moved _ effect =>
          exact ih.task (run.exposed.tidy noTasks noObjects) found move moved effect
      | @loop puller heed loop pulled next found pull move moved born frame effect =>
          have taken := List.mem_of_getElem? found
          have notTask (index : Nat) : Event.loop puller heed ≠ (Event.task index : Event σ ν) :=
            nofun
          cases starts : loop.hasPermit with
          | false =>
              refine ih.others unbroken notTask stepped ?_
              obtain ⟨queue, phase⟩ := loop
              rw [born]
              cases phase with
              | starting stream delivery => cases starts
              | _ => exact List.append_nil _
          | true =>
              have finished := run.finished_of_starting returns present noTasks noLoops taken starts
              have still := State.step_still unbroken notTask stepped
              have unknown := run.deeds_unknown noTasks (Nat.le_refl _)
              obtain ⟨queue, phase⟩ := loop
              cases phase with
              | starting stream delivery => exact ih.born returns finished unknown still born
              | _ => cases starts
      | outside notTask _ frame _ => exact ih.others unbroken notTask stepped frame.tasks

theorem Run.called_before (returns : setup.recovery.Returns) (holds : setup.transport.Holds)
    (present : first.permits = some ⟨1, []⟩) (noTasks : first.tasks = [])
    (noLoops : first.loops = []) (noObjects : first.pool.free = [])
    (run : Run setup first course system) {past later : List (Nat × Deed σ ν)} {index : Nat}
    {invocation : Invocation σ ν}
    (split : course.doings setup = past ++ (index, .invoked invocation) :: later)
    {earlier : Nat} (sooner : earlier < index) : ∃ call, (earlier, .called call) ∈ past := by
  induction run generalizing later with
  | start => simp [Course.doings, Course.gather, Course.history] at split
  | step run stepped ih =>
      rename_i course before after event
      cases State.step_moved stepped with
      | task found move moved frame =>
          rename_i doer mover next
          rw [Course.doings_task] at split
          cases done : before.deed? setup doer with
          | none => exact ih (by simpa [done] using split)
          | some deed =>
              rw [done] at split
              rcases List.eq_nil_or_concat later with rfl | ⟨rest, last, rfl⟩
              · obtain ⟨rfl, same⟩ := List.append_inj' split rfl
                obtain ⟨rfl, -⟩ := Prod.mk.inj (List.singleton_inj.mp same)
                have serving := run.serving returns holds present noTasks noLoops noObjects
                obtain ⟨others, parts, rfl, finished⟩ := serving.alone found move.not_finished
                have here : before.tasks[earlier]? = some others[earlier] := by
                  rw [parts, List.getElem?_append_left sooner, List.getElem?_eq_getElem sooner]
                have ended := finished others[earlier] (List.getElem_mem sooner)
                have once := (run.called returns noTasks here).spec.2.1 ended
                obtain ⟨call, calls⟩ := List.length_eq_one_iff.mp once
                obtain ⟨deed, taken, isCall⟩ := List.mem_filterMap.mp
                  (calls ▸ List.mem_singleton_self call)
                cases deed with
                | called other => exact ⟨other, Course.mem_deeds.mp taken⟩
                | _ => simp [Deed.call?] at isCall
              · have longer : course.doings setup ++ [(doer, deed)] =
                    (past ++ (index, .invoked invocation) :: rest) ++ [last] := by
                  simpa using split
                exact ih (List.append_inj' longer rfl).1
      | loop _ _ _ _ _ _ =>
          rw [Course.doings_else fun _ same => by cases same] at split
          exact ih split
      | outside notTask _ _ =>
          rw [Course.doings_else notTask] at split
          exact ih split

theorem Task.slot_of_finished {task : Task σ ν} (finished : task.phase.isFinished = true) :
    task.slot? = none := by
  obtain ⟨delivery, queue, puller, phase⟩ := task
  cases phase with
  | finished => rfl
  | _ => cases finished

theorem TaskMove.slots_le {task : Task σ ν} {deed : Option (Deed σ ν)} {next : TaskPhase σ ν}
    {pool : Pool} (move : TaskMove setup system task.delivery task.queue task.phase deed next)
    (few : pool.free.length + task.slot?.toList.length ≤ 1) :
    (task.phase.poolAfter pool).free.length +
      (Task.slot? { task with phase := next }).toList.length ≤ 1 := by
  obtain ⟨delivery, queue, puller, phase⟩ := task
  simp only [Task.slot?] at few ⊢
  cases move with
  | borrow =>
      have taken := pool.idle_acquire
      simp only [Pool.idle] at taken
      simp only [TaskPhase.lease?, TaskPhase.poolAfter, Option.map_none, Option.map_some,
        Option.toList_none, Option.toList_some, List.length_nil, List.length_singleton]
        at few ⊢
      omega
  | succeed | fail | drop | unwind =>
      exact Nat.le_trans (pool.idle_release_le _) few
  | _ => exact few

theorem Run.slots_le (returns : setup.recovery.Returns) (holds : setup.transport.Holds)
    (present : first.permits = some ⟨1, []⟩) (noTasks : first.tasks = [])
    (noLoops : first.loops = []) (noObjects : first.pool.free = [])
    (run : Run setup first course system) :
    system.pool.free.length + system.heldSlots.length ≤ 1 := by
  induction run with
  | start => simp [noObjects, State.heldSlots, noTasks]
  | step run stepped ih =>
      rename_i course before after event
      cases State.step_stepped stepped with
      | task found _ move moved _ effect =>
          have serving := run.serving returns holds present noTasks noLoops noObjects
          obtain ⟨earlier, parts, place, finished⟩ := serving.alone found move.not_finished
          have others : earlier.filterMap Task.slot? = [] := by
            rw [List.filterMap_eq_nil_iff]
            exact fun other taken => Task.slot_of_finished (finished other taken)
          rw [parts, place, modify_concat] at moved
          simp only [State.heldSlots, parts, moved, List.filterMap_append, others,
            List.nil_append, List.filterMap_cons, List.filterMap_nil, effect.pool] at ih ⊢
          exact move.slots_le ih
      | loop _ _ _ _ born _ effect =>
          unfold State.heldSlots at ih ⊢
          rwa [effect.pool, born, List.filterMap_append, heldSlots_born, List.append_nil]
      | outside _ _ frame effect =>
          unfold State.heldSlots at ih ⊢
          rwa [effect.pool, frame.tasks]

theorem State.pull?_queue {index : Nat} {heed : Bool} {queue : String} {delivery : Delivery}
    (pulled : system.pull? index heed = some (queue, delivery)) :
    ∃ loop, system.loops[index]? = some loop ∧ loop.queue = queue := by
  unfold State.pull? at pulled
  split at pulled
  · rename_i source stream found
    refine ⟨_, found, ?_⟩
    split at pulled
    · simp at pulled
    · split at pulled
      · exact (Prod.mk.inj (Option.some.inj pulled)).1
      · simp at pulled
  · simp at pulled

theorem Run.loop_queue (run : Run setup first course system) {moment : State σ ν × Event σ ν}
    (taken : moment ∈ course) {index : Nat} {loop : Loop}
    (found : moment.1.loops[index]? = some loop) :
    ∃ later, system.loops[index]? = some later ∧ later.queue = loop.queue := by
  induction run with
  | start => simp at taken
  | step run stepped ih =>
      have moved := State.step_moved stepped
      rcases List.mem_append.mp taken with earlier | last
      · obtain ⟨later, foundLater, same⟩ := ih earlier
        obtain ⟨latest, foundLatest, sameLatest⟩ := moved.loop_queue foundLater
        exact ⟨latest, foundLatest, sameLatest.trans same⟩
      · rw [List.mem_singleton.mp last] at found
        exact moved.loop_queue found

theorem Run.pulledFrom_single {loop : Loop} (single : system.loops = [loop])
    (run : Run setup first course system) :
    course.pulledFrom setup loop.queue = (course.pulledBy setup 0).map Prod.snd := by
  unfold Course.pulledFrom Course.pulledBy Course.gather Course.history
  rw [List.filterMap_filterMap, List.filterMap_filterMap, List.map_filterMap]
  apply List.filterMap_congr
  rintro ⟨before, event⟩ taken
  cases event with
  | loop puller heed =>
      cases pulled : before.pull? puller heed with
      | none => simp [State.happening?, pulled]
      | some label =>
          obtain ⟨known, found, named⟩ := State.pull?_queue pulled
          obtain ⟨later, foundLater, same⟩ := run.loop_queue taken found
          rw [single, List.getElem?_singleton, Option.ite_none_right_eq_some] at foundLater
          obtain ⟨rfl, isLoop⟩ := foundLater
          obtain rfl := Option.some.inj isLoop
          simp [State.happening?, pulled, Happening.pulledFrom?, Happening.pulledBy?, ← named, same]
  | task index =>
      cases done : before.deed? setup index <;>
        simp [State.happening?, done, Happening.pulledFrom?, Happening.pulledBy?]
  | _ => simp [State.happening?, Happening.pulledFrom?, Happening.pulledBy?]

theorem Run.in_order {loop : Loop} (sound : first.broker.Sound) (noTasks : first.tasks = [])
    (noLoops : first.loops = []) (single : system.loops = [loop])
    (unclosed : ∀ moment ∈ course, moment.2 ≠ .closeQueue loop.queue)
    (run : Run setup first course system) :
    system.tasks.map Task.label = system.tasks.map (fun task => (loop.queue, task.delivery)) ∧
    first.broker.waitingIn loop.queue ++ course.publishedTo setup loop.queue =
      system.tasks.map Task.delivery ++ loop.phase.held ++ system.broker.waitingIn loop.queue := by
  have puller : ∀ task ∈ system.tasks, task.puller = 0 ∧ task.queue = loop.queue := by
    intro task taken
    obtain ⟨known, found, same⟩ := (run.subscribed noTasks noLoops).tasks task taken
    rw [single, List.getElem?_singleton, Option.ite_none_right_eq_some] at found
    obtain ⟨here, isLoop⟩ := found
    obtain rfl := Option.some.inj isLoop
    exact ⟨here, same.symm⟩
  have handed : system.handedBy 0 = system.tasks.map Task.label := by
    rw [State.handedBy, ← List.filterMap_eq_map]
    apply List.filterMap_congr
    intro task taken
    simp [Task.handed, (puller task taken).1, Task.label]
  constructor
  · apply List.map_congr_left
    intro task taken
    rw [Task.label, (puller task taken).2]
  · rw [(run.stocked sound noLoops unclosed).waiting, run.pulledFrom_single single,
      run.custody noTasks noLoops, handed, State.heldBy, single]
    simp [Task.label, Function.comp_def]

/-- What a consumer with one permit and one loop does is done in series. -/
structure InSeries (setup : Setup σ) (start : World σ) (broker : Broker) (loop : Loop)
    (course : Course σ ν) (system : State σ ν) : Prop where
  order : broker.waitingIn loop.queue ++ course.publishedTo setup loop.queue =
    system.tasks.map Task.delivery ++ loop.phase.held ++ system.broker.waitingIn loop.queue
  /-- All that tasks have done, in the order in which it was done, is what a plain loop over their
  deliveries does, and it is all of that when the last of them has finished. -/
  served : ∃ more last, Served setup start
      (system.tasks.map fun task => (loop.queue, task.delivery))
      ((course.doings setup).map Prod.snd ++ more) last ∧
    ((∀ task ∈ system.tasks, task.phase.isFinished = true) → more = [])
  looked : ∀ index invocation, (index, .invoked invocation) ∈ course.doings setup →
    LookedUp course index invocation.moment invocation.param.taskName (some invocation.handler)
  unhandled : ∀ index name, (index, .unhandled name) ∈ course.doings setup →
    ∃ moment, LookedUp course index moment name none
  /-- No handler is called before the calls for all earlier deliveries have been made. -/
  turns : ∀ past index invocation later,
    course.doings setup = past ++ (index, .invoked invocation) :: later →
    ∀ earlier < index, ∃ call, (earlier, .called call) ∈ past
  attempts : (∀ moment ∈ course, ∀ count, moment.2 ≠ .failTerminations count) →
    ∀ place call, (course.attempts setup)[place]? = some call →
      (call.result = .ok () ↔ broker.failingTerminations ≤ place)
  objects : system.pool.free.length + system.heldSlots.length ≤ 1

/-- A consumer with one permit, with one loop on a queue that is not closed, does at any moment of
any run what a plain loop over the queue would have done by then, whatever the handlers do, whatever
attempts are refused and in whatever turns the loop and the tasks move. -/
theorem Run.in_series {registry : Registry (Handler σ ν)} {broker : Broker} {shared : σ}
    {loop : Loop} (serial : setup.config.maxConcurrency = some 1)
    (returns : setup.recovery.Returns) (holds : setup.transport.Holds) (made : broker.Made)
    (single : system.loops = [loop])
    (unclosed : ∀ moment ∈ course, moment.2 ≠ .closeQueue loop.queue)
    (run : Run setup (State.start setup registry broker shared) course system) :
    InSeries setup ⟨shared, false⟩ broker loop course system := by
  have present : (State.start setup registry broker shared).permits = some ⟨1, []⟩ := by
    simp [State.start, serial]
  obtain ⟨labels, order⟩ := run.in_order made.sound rfl rfl single unclosed
  refine ⟨order, ?served, ?looked, ?unhandled, ?turns, ?attempts, ?objects⟩
  case served =>
    have serving := run.serving returns holds present rfl rfl rfl
    obtain ⟨more, last, served, complete⟩ := serving.exists_served returns
    rw [labels] at served
    exact ⟨more, last, served, fun all => (complete all).1⟩
  case looked =>
    exact fun index invocation taken => lookedUp_of_invoked run (Course.mem_deeds.mpr taken)
  case unhandled =>
    exact fun index name taken => lookedUp_of_unhandled run (Course.mem_deeds.mpr taken)
  case turns =>
    exact fun past index invocation later split earlier sooner =>
      run.called_before returns holds present rfl rfl rfl split sooner
  case attempts => exact fun unarranged => (run.attempts unarranged).2
  case objects => exact run.slots_le returns holds present rfl rfl rfl

def countingSetup : Setup Nat :=
  Setup.usual { ConsumerConfig.default with maxConcurrency := some 1 } Recovery.report
    Transport.prompt

/-- The handler breaks down the first time it is called. The loop has pulled the second message and
waits while the task of the first is at work. -/
def countingEvents : List (Event Nat Unit) :=
  let body := Bytes.ofText "\x7b\"task_name\":\"t\"\x7d"
  let handler : Handler Nat Unit := fun _ _ =>
    .access (· + 1) fun calls => if calls = 0 then .panic ⟨none⟩ else .succeed
  List.flatten [
    [.register "t" handler, .publish "q" (some "a") body, .publish "q" (some "b") body,
      .subscribe "q", .caller 0],
    List.replicate 9 (.loop 0 true), List.replicate 13 (.task 0), [.loop 0 true],
    List.replicate 11 (.task 1)]

theorem in_series_counting :
    ∃ (course : Course Nat Unit) (system : State Nat Unit) (loop : Loop) (call : Call),
      Run countingSetup
          (State.start countingSetup Registry.empty (Broker.empty.failTerminations 1) 0) course
          system ∧
        InSeries countingSetup ⟨0, false⟩ (Broker.empty.failTerminations 1) loop course system ∧
        system.shared = 2 ∧ (course.attempts countingSetup)[1]? = some call ∧
        call.result = .ok () := by
  have seen : ((State.start countingSetup Registry.empty (Broker.empty.failTerminations 1)
      0).follow countingSetup countingEvents).any (fun led =>
        decide (led.2.loops.length = 1) && (decide (led.2.shared = 2) &&
          (decide ((led.1.attempts countingSetup).length = 2) && led.1.all fun moment =>
            match moment.2 with
            | .closeQueue _ | .failTerminations _ => false
            | _ => true))) = true := by
    decide +kernel
  obtain ⟨⟨course, system⟩, followed, checked⟩ := (Option.any_eq_true _ _).mp seen
  simp only [Bool.and_eq_true, decide_eq_true_eq, List.all_eq_true] at checked
  obtain ⟨alone, shared, attempts, events⟩ := checked
  obtain ⟨loop, single⟩ := List.length_eq_one_iff.mp alone
  have unclosed : ∀ moment ∈ course, moment.2 ≠ .closeQueue loop.queue := by
    intro moment taken closed
    have checked := events moment taken
    rw [closed] at checked
    cases checked
  have unarranged : ∀ moment ∈ course, ∀ count, moment.2 ≠ .failTerminations count := by
    intro moment taken count arranged
    have checked := events moment taken
    rw [arranged] at checked
    cases checked
  have run := Run.start.follow followed
  rw [List.nil_append] at run
  have made : (Broker.empty.failTerminations 1).Made := .change .empty (.failTerminations 1)
  have series := Run.in_series rfl (fun _ _ _ => rfl) (fun _ => rfl) made single unclosed run
  have second := List.getElem?_eq_getElem (l := course.attempts countingSetup) (i := 1) (by omega)
  exact ⟨course, system, loop, _, run, series, shared, second,
    (series.attempts unarranged 1 _ second).mpr (Nat.le_refl 1)⟩

end Consumer

end TaskQueue
