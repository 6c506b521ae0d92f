import TaskQueue.Proofs.Consumer.Exposed

/-!
The permits of a consumer whose tasks are limited. A permit is free, or a task has it that has not
left, or a loop has it for the task that it is about to start; there are always as many as the limit
says. Loops stand in line only while none is free.
-/

namespace TaskQueue.Consumer

variable {σ ν : Type} {setup : Setup σ} {first system before after : State σ ν}
  {course : Course σ ν} {limit : Nat} {permits : Permits}

def Task.hasPermit (task : Task σ ν) : Bool := task.phase.hasPermit

def Loop.hasPermit (loop : Loop) : Bool := loop.phase.hasPermit

def Loop.isWaiting (loop : Loop) : Bool := loop.phase.isWaiting

def Task.isHandling (task : Task σ ν) : Bool :=
  match task.phase with
  | .running _ _ _ | .sleeping _ _ _ _ => true
  | _ => false

def State.WaitingAt (system : State σ ν) (index : Nat) : Prop :=
  ∃ loop, system.loops[index]? = some loop ∧ loop.isWaiting = true

/-- All permits are accounted for, and the loops in line are those that wait. -/
structure Licensed (limit : Nat) (system : State σ ν) (permits : Permits) : Prop where
  present : system.permits = some permits
  whole : permits.free + system.tasks.countP Task.hasPermit +
    system.loops.countP Loop.hasPermit = limit
  lined : ∀ index, index ∈ permits.line ↔ system.WaitingAt index
  once : permits.line.Nodup
  full : permits.line = [] ∨ permits.free = 0

theorem waitingAt_modify {change : Loop → Loop} {index : Nat} {loop : Loop}
    (found : before.loops[index]? = some loop)
    (modified : after.loops = before.loops.modify index change) (other : Nat) :
    after.WaitingAt other ↔
      if index = other then (change loop).isWaiting = true else before.WaitingAt other := by
  unfold State.WaitingAt
  rw [modified, List.getElem?_modify]
  by_cases same : index = other
  · subst other
    simp [found]
  · simp [same]

theorem waitingAt_append {loops : List Loop} (added : after.loops = before.loops ++ loops)
    (quiet : ∀ loop ∈ loops, loop.isWaiting = false) (index : Nat) :
    after.WaitingAt index ↔ before.WaitingAt index := by
  unfold State.WaitingAt
  rw [added]
  constructor
  · rintro ⟨loop, found, waits⟩
    by_cases old : index < before.loops.length
    · rw [List.getElem?_append_left old] at found
      exact ⟨loop, found, waits⟩
    · rw [List.getElem?_append_right (Nat.le_of_not_lt old)] at found
      rw [quiet loop (List.mem_of_getElem? found)] at waits
      simp at waits
  · rintro ⟨loop, found, waits⟩
    rw [List.getElem?_append_left (List.getElem?_eq_some_iff.mp found).1]
    exact ⟨loop, found, waits⟩

theorem Loop.isWaiting_iff {loop : Loop} :
    loop.isWaiting = true ↔ ∃ stream delivery, loop.phase = .waiting stream delivery := by
  obtain ⟨queue, phase⟩ := loop
  cases phase <;> simp [isWaiting, LoopPhase.isWaiting]

theorem Loop.grant_waiting {loop : Loop} (waits : loop.isWaiting = true) :
    loop.grant.isWaiting = false ∧ loop.grant.hasPermit = true ∧ loop.hasPermit = false := by
  obtain ⟨queue, phase⟩ := loop
  obtain ⟨stream, delivery, rfl⟩ := isWaiting_iff.mp waits
  exact ⟨rfl, rfl, rfl⟩

namespace Licensed

theorem kept (licensed : Licensed limit before permits)
    (samePermits : after.permits = before.permits)
    (sameWhole : after.tasks.countP Task.hasPermit + after.loops.countP Loop.hasPermit =
      before.tasks.countP Task.hasPermit + before.loops.countP Loop.hasPermit)
    (sameLine : ∀ index, after.WaitingAt index ↔ before.WaitingAt index) :
    Licensed limit after permits := by
  refine ⟨samePermits.trans licensed.present, ?_, ?_, licensed.once, licensed.full⟩
  · have whole := licensed.whole
    omega
  · intro index
    rw [sameLine]
    exact licensed.lined index

theorem returned (licensed : Licensed limit before permits)
    (samePermits : after.permits = before.returnPermit.permits)
    (sameLoops : after.loops = before.returnPermit.loops)
    (left : after.tasks.countP Task.hasPermit + 1 = before.tasks.countP Task.hasPermit) :
    ∃ later, Licensed limit after later := by
  obtain ⟨present, whole, lined, once, full⟩ := licensed
  obtain ⟨free, line⟩ := permits
  cases line with
  | nil =>
      simp only [State.returnPermit_free present] at samePermits sameLoops
      refine ⟨⟨free + 1, []⟩, samePermits, ?_, ?_, List.nodup_nil, .inl rfl⟩
      · simp only [sameLoops] at whole ⊢
        omega
      · intro index
        rw [lined]
        simp only [State.WaitingAt, sameLoops]
  | cons first rest =>
      simp only [State.returnPermit_granted present] at samePermits sameLoops
      obtain ⟨notAgain, once⟩ := List.nodup_cons.mp once
      obtain ⟨loop, found, waits⟩ := (lined first).mp List.mem_cons_self
      obtain ⟨notWaiting, permitted, without⟩ := Loop.grant_waiting waits
      have counted := countP_modify Loop.grant Loop.hasPermit found
      rw [permitted, without, ← sameLoops] at counted
      -- somebody stands in line, so no permit was free
      have none : free = 0 := by simpa using full
      refine ⟨⟨free, rest⟩, samePermits, ?_, ?_, once, .inr none⟩
      · simp only [Bool.toNat_true, Bool.toNat_false] at counted whole ⊢
        omega
      · intro index
        rw [waitingAt_modify found sameLoops]
        by_cases same : first = index
        · subst index
          simp [notAgain, notWaiting]
        · rw [if_neg same, ← lined, List.mem_cons]
          exact ⟨.inr, fun taken => taken.resolve_left (Ne.symm same)⟩

theorem requested {index stream : Nat} {delivery : Delivery} {queue : String}
    (licensed : Licensed limit before permits)
    (found : before.loops[index]? = some ⟨queue, .counted stream delivery⟩) :
    ∃ later, Licensed limit (before.requestPermit index stream delivery) later := by
  obtain ⟨present, whole, lined, once, full⟩ := licensed
  obtain ⟨free, line⟩ := permits
  cases free with
  | zero =>
      have counted := countP_modify
        (fun loop => { loop with phase := LoopPhase.waiting stream delivery })
        Loop.hasPermit found
      have notWaiting : ¬before.WaitingAt index := by
        rintro ⟨loop, foundLoop, waits⟩
        obtain rfl := Option.some.inj (found.symm.trans foundLoop)
        simp [Loop.isWaiting, LoopPhase.isWaiting] at waits
      rw [State.requestPermit_lined present]
      refine ⟨⟨0, line ++ [index]⟩, rfl, ?_, ?_, ?_, .inr rfl⟩
      · simp only [State.setLoop_tasks, State.setLoop_loops, Loop.hasPermit, LoopPhase.hasPermit,
          Bool.toNat_false] at counted whole ⊢
        omega
      · intro other
        rw [waitingAt_modify found rfl, List.mem_append, List.mem_singleton, lined]
        by_cases same : index = other
        · subst other
          simp [Loop.isWaiting, LoopPhase.isWaiting]
        · simp [same, Ne.symm same, State.WaitingAt]
      · rw [List.nodup_append]
        refine ⟨once, List.nodup_cons.mpr ⟨List.not_mem_nil, List.nodup_nil⟩, ?_⟩
        rintro other taken _ isIndex rfl
        rw [List.mem_singleton.mp isIndex, lined] at taken
        exact notWaiting taken
  | succ free =>
      -- a permit is free, so nobody stands in line and would be overtaken
      have noLine : line = [] := by simpa using full
      have counted := countP_modify
        (fun loop => { loop with phase := LoopPhase.starting stream delivery })
        Loop.hasPermit found
      rw [State.requestPermit_granted present]
      refine ⟨⟨free, line⟩, rfl, ?_, ?_, once, .inl noLine⟩
      · simp only [State.setLoop_tasks, State.setLoop_loops, Loop.hasPermit, LoopPhase.hasPermit,
          Bool.toNat_false, Bool.toNat_true] at counted whole ⊢
        omega
      · intro other
        rw [waitingAt_modify found rfl, lined]
        by_cases same : index = other
        · subst other
          simp [Loop.isWaiting, LoopPhase.isWaiting, State.WaitingAt, found]
        · simp [same, State.WaitingAt]

end Licensed

theorem TaskMove.hasPermit {delivery : Delivery} {queue : String} {phase next : TaskPhase σ ν}
    {deed : Option (Deed σ ν)} (move : TaskMove setup system delivery queue phase deed next) :
    phase.hasPermit = true ∧ next.hasPermit = false ∧
        phase.permitted system = system.returnPermit ∨
      phase.hasPermit = next.hasPermit ∧ phase.permitted system = system := by
  cases move with
  | leave | escape => exact .inl ⟨rfl, rfl, rfl⟩
  | _ => exact .inr ⟨rfl, rfl⟩

theorem LoopMove.hasPermit {heed : Bool} {queue : String} {phase next : LoopPhase}
    {pulled : Option Delivery} {broker : Broker}
    (move : LoopMove setup system heed queue phase pulled next broker)
    (notAsking : phase.asks = false) (index : Nat) :
    phase.isWaiting = false ∧ next.isWaiting = false ∧ next.hasPermit = false ∧
      (phase.born queue index : List (Task σ ν)).countP Task.hasPermit =
        phase.hasPermit.toNat := by
  cases move with
  | getPermit | getInLine => simp [LoopPhase.asks] at notAsking
  | openFailed _ _ =>
      exact ⟨rfl, LoopPhase.paused_same LoopPhase.isWaiting (fun _ => rfl) setup _,
        LoopPhase.paused_same LoopPhase.hasPermit (fun _ => rfl) setup _, rfl⟩
  | ended _ =>
      refine ⟨rfl, ?_, ?_, rfl⟩ <;> split
      · rfl
      · exact LoopPhase.paused_same LoopPhase.isWaiting (fun _ => rfl) setup _
      · rfl
      · exact LoopPhase.paused_same LoopPhase.hasPermit (fun _ => rfl) setup _
  | giveWay => refine ⟨rfl, ?_, ?_, rfl⟩ <;> split <;> rfl
  | _ => exact ⟨rfl, rfl, rfl, rfl⟩

theorem Licensed.step_task {index : Nat} {task : Task σ ν} {next : TaskPhase σ ν}
    {deed : Option (Deed σ ν)} (licensed : Licensed limit before permits)
    (found : before.tasks[index]? = some task)
    (move : TaskMove setup before task.delivery task.queue task.phase deed next)
    (moved : after.tasks = before.tasks.modify index fun task => { task with phase := next })
    (effect : TaskEffect setup before after task.phase) : ∃ later, Licensed limit after later := by
  have counted := countP_modify (fun task => { task with phase := next })
    Task.hasPermit found
  have samePermits := effect.permits
  have sameLoops := effect.loops
  rw [← moved] at counted
  rcases move.hasPermit with ⟨had, has, permitted⟩ | ⟨same, permitted⟩
  · rw [permitted] at samePermits sameLoops
    refine licensed.returned samePermits sameLoops ?_
    simpa [Task.hasPermit, had, has] using counted
  · rw [permitted] at samePermits sameLoops
    refine ⟨permits, licensed.kept samePermits ?_ ?_⟩
    · rw [sameLoops]
      simp only [Task.hasPermit, same] at counted ⊢
      omega
    · intro other
      simp only [State.WaitingAt, sameLoops]

theorem Licensed.step_loop {index : Nat} {heed : Bool} {loop : Loop}
    {pulled : Option Delivery} {next : LoopPhase} (licensed : Licensed limit before permits)
    (found : before.loops[index]? = some loop)
    (move : LoopMove setup before heed loop.queue loop.phase pulled next after.broker)
    (moved : after.loops = before.loops.modify index fun loop => { loop with phase := next })
    (born : after.tasks = before.tasks ++ loop.phase.born loop.queue index)
    (effect : LoopEffect setup before after index loop.phase next) :
    ∃ later, Licensed limit after later := by
  rcases effect.permits with ⟨stream, delivery, counts, rfl⟩ | ⟨notAsking, samePermits⟩
  · obtain ⟨queue, phase⟩ := loop
    obtain rfl : phase = .counted stream delivery := counts
    exact licensed.requested found
  · obtain ⟨notWaiting, quiet, without, given⟩ := move.hasPermit notAsking index
    have counted := countP_modify (fun loop => { loop with phase := next })
      Loop.hasPermit found
    refine ⟨permits, licensed.kept samePermits ?_ ?_⟩
    · rw [born, List.countP_append, given, moved]
      simp only [Loop.hasPermit, without, Bool.toNat_false] at counted ⊢
      omega
    · intro other
      rw [waitingAt_modify found moved]
      by_cases same : index = other
      · subst other
        simp [Loop.isWaiting, quiet, State.WaitingAt, found, notWaiting]
      · simp [same]

theorem Licensed.step {event : Event σ ν} (licensed : Licensed limit before permits)
    (stepped : Stepped setup before after event) : ∃ later, Licensed limit after later := by
  cases stepped with
  | task found _ move moved _ effect => exact licensed.step_task found move moved effect
  | loop found _ move moved born _ effect => exact licensed.step_loop found move moved born effect
  | outside _ _ frame effect =>
      refine ⟨permits, ?_⟩
      rcases frame.loops with same | ⟨queue, _, added⟩
      · refine licensed.kept effect.permits (by rw [frame.tasks, same]) ?_
        intro index
        simp only [State.WaitingAt, same]
      · refine licensed.kept effect.permits ?_ (waitingAt_append added ?_)
        · rw [frame.tasks, added, List.countP_append]
          rfl
        · intro loop taken
          rw [List.mem_singleton.mp taken]
          rfl

theorem Exposed.exists_licensed (present : first.permits = some ⟨limit, []⟩)
    (noTasks : first.tasks = []) (noLoops : first.loops = [])
    (exposed : Exposed setup first course system) : ∃ permits, Licensed limit system permits := by
  induction exposed with
  | start =>
      refine ⟨⟨limit, []⟩, present, by simp [noTasks, noLoops], ?_, List.nodup_nil, .inl rfl⟩
      intro index
      simp [State.WaitingAt, noLoops]
  | step _ stepped ih =>
      obtain ⟨permits, licensed⟩ := ih
      exact licensed.step (State.step_stepped stepped)
  | elsewhere broker now _ ih =>
      obtain ⟨permits, licensed⟩ := ih
      exact ⟨permits, licensed.present, licensed.whole, licensed.lined, licensed.once,
        licensed.full⟩

theorem Run.unlimited (unlimited : first.permits = none) (noLoops : first.loops = [])
    (run : Run setup first course system) :
    system.permits = none ∧ ∀ loop ∈ system.loops, loop.isWaiting = false := by
  induction run with
  | start => exact ⟨unlimited, by simp [noLoops]⟩
  | step run stepped ih =>
      rename_i before after event
      obtain ⟨noPermits, quiet⟩ := ih
      cases State.step_stepped stepped with
      | task found ran move moved frame effect =>
          rename_i doer task next
          have permitted : task.phase.permitted before = before := by
            rcases move.hasPermit with ⟨_, _, returned⟩ | ⟨_, same⟩
            · rw [returned]
              simp [noPermits]
            · exact same
          rw [effect.permits, effect.loops, permitted]
          exact ⟨noPermits, quiet⟩
      | loop found pull move moved born frame effect =>
          rename_i puller heed loop pulled next
          have calm : next.isWaiting = false ∧ after.permits = none := by
            rcases effect.permits with ⟨stream, delivery, _, asked⟩ | ⟨notAsking, same⟩
            · have granted : after = before.setLoop puller (.starting stream delivery) :=
                asked.trans (State.requestPermit_unlimited noPermits)
              have started := congrArg (fun state => state.loops[puller]?) granted
              simp only [moved, State.setLoop_loops, List.getElem?_modify, found, if_true,
                Option.map_eq_map, Option.map_some, Option.some.injEq, Loop.mk.injEq,
                true_and] at started
              rw [granted, started]
              exact ⟨rfl, noPermits⟩
            · exact ⟨(move.hasPermit notAsking puller).2.1, same.trans noPermits⟩
          refine ⟨calm.2, ?_⟩
          intro other taken
          rw [moved] at taken
          rcases mem_modify taken with old | ⟨known, _, rfl⟩
          · exact quiet other old
          · exact calm.1
      | outside _ _ frame effect =>
          refine ⟨effect.permits.trans noPermits, ?_⟩
          intro loop taken
          rcases frame.mem_loops taken with old | ⟨_, _, rfl⟩
          · exact quiet loop old
          · rfl

/-- One permit more is free, or one loop less stands in line. -/
def Permits.regained : Option Permits → Option Permits → Bool
  | some ⟨free, []⟩, later => later == some ⟨free + 1, []⟩
  | some ⟨free, _ :: rest⟩, later => later == some ⟨free, rest⟩
  | none, _ => false

def State.givesBack (system : State σ ν) (setup : Setup σ) (index : Nat) : Bool :=
  (system.stepTask setup index).any fun after => Permits.regained system.permits after.permits

def Course.givenBack (setup : Setup σ) (course : Course σ ν) (index : Nat) : Nat :=
  (course.turns index).countP (·.givesBack setup index)

theorem regained_returnPermit (present : system.permits = some permits) :
    Permits.regained system.permits system.returnPermit.permits = true := by
  obtain ⟨free, line⟩ := permits
  cases line with
  | nil => simp [State.returnPermit_free present, present, Permits.regained]
  | cons first rest => simp [State.returnPermit_granted present, present, Permits.regained]

@[simp] theorem regained_self (permits : Permits) :
    Permits.regained (some permits) (some permits) = false := by
  obtain ⟨free, line⟩ := permits
  cases line <;> simp [Permits.regained]

theorem Licensed.givesBack {index : Nat} {task : Task σ ν} {next : TaskPhase σ ν}
    {deed : Option (Deed σ ν)} (licensed : Licensed limit before permits)
    (found : before.tasks[index]? = some task)
    (stepped : before.stepTask setup index = some after)
    (move : TaskMove setup before task.delivery task.queue task.phase deed next) :
    (before.givesBack setup index).toNat + next.hasPermit.toNat = task.phase.hasPermit.toNat := by
  have samePermits := (State.stepTask_effect found stepped).permits
  rcases move.hasPermit with ⟨had, has, permitted⟩ | ⟨same, permitted⟩
  · have gives : before.givesBack setup index = true := by
      simp [State.givesBack, stepped, samePermits, permitted,
        regained_returnPermit licensed.present]
    simp [gives, had, has]
  · have keeps : before.givesBack setup index = false := by
      simp [State.givesBack, stepped, samePermits, permitted, licensed.present]
    simp [keeps, same]

/-- A task has its permit, or has given it back once. -/
theorem Exposed.givenBack (present : first.permits = some ⟨limit, []⟩)
    (noTasks : first.tasks = []) (noLoops : first.loops = [])
    (exposed : Exposed setup first course system) {index : Nat} {task : Task σ ν}
    (found : system.tasks[index]? = some task) :
    course.givenBack setup index + task.hasPermit.toNat = 1 := by
  have tracked := exposed.forall_tasks
    (fun index turns task =>
      turns.countP (·.givesBack setup index) + task.hasPermit.toNat = 1) noTasks
    (fun _ _ _ _ => rfl) ?_
  · exact tracked.known index task found
  · intro earlier before after doer mover next turns reached foundMover stepped move known
    obtain ⟨permits, licensed⟩ := reached.exists_licensed present noTasks noLoops
    have given := licensed.givesBack foundMover stepped move
    rw [List.countP_append, List.countP_singleton]
    simp only [Task.hasPermit] at known ⊢
    cases gives : before.givesBack setup doer <;> simp [gives] at given ⊢ <;> omega

theorem Task.hasPermit_of_handling {task : Task σ ν} (handles : task.isHandling = true) :
    task.hasPermit = true := by
  obtain ⟨delivery, queue, puller, phase⟩ := task
  cases phase <;> first | rfl | simp [isHandling] at handles

theorem Task.hasPermit_of_finished {task : Task σ ν} (finished : task.phase.isFinished = true) :
    task.hasPermit = false := by
  obtain ⟨delivery, queue, puller, phase⟩ := task
  cases phase <;> first | rfl | simp [TaskPhase.isFinished] at finished

/-- No permit is lost and none comes back twice. The free permits, those of tasks and those of loops
that are about to start a task are always as many as the limit says; so no more handlers are at
work at once, a task that has finished has given its permit back exactly once, and a loop waits only
while all permits are out. -/
theorem Exposed.limited {registry : Registry (Handler σ ν)} {broker : Broker} {shared : σ}
    {limit : UInt64} (limited : setup.config.maxConcurrency = some limit)
    (exposed : Exposed setup (State.start setup registry broker shared) course system) :
    ∃ permits, system.permits = some permits ∧
      permits.free + system.tasks.countP Task.hasPermit + system.loops.countP Loop.hasPermit =
        limit.toNat ∧
      system.tasks.countP Task.isHandling ≤ limit.toNat ∧
      (∀ index task, system.tasks[index]? = some task →
        course.givenBack setup index + task.hasPermit.toNat = 1 ∧
          (task.phase.isFinished = true → course.givenBack setup index = 1)) ∧
      ∀ loop ∈ system.loops, loop.isWaiting = true →
        system.tasks.countP Task.hasPermit + system.loops.countP Loop.hasPermit =
          limit.toNat := by
  have present : (State.start setup registry broker shared).permits = some ⟨limit.toNat, []⟩ := by
    simp [State.start, limited]
  obtain ⟨permits, licensed⟩ := exposed.exists_licensed present rfl rfl
  have whole := licensed.whole
  refine ⟨permits, licensed.present, whole, ?handling, ?tasks, ?waiting⟩
  case handling =>
    have fewer : system.tasks.countP Task.isHandling ≤ system.tasks.countP Task.hasPermit :=
      List.countP_mono_left fun task _ => Task.hasPermit_of_handling
    omega
  case tasks =>
    intro index task found
    have given := exposed.givenBack present rfl rfl found
    refine ⟨given, ?_⟩
    intro finished
    simpa [Task.hasPermit_of_finished finished] using given
  case waiting =>
    intro loop taken waits
    obtain ⟨index, found⟩ := List.mem_iff_getElem?.mp taken
    have inLine := (licensed.lined index).mpr ⟨loop, found, waits⟩
    have none : permits.free = 0 :=
      licensed.full.resolve_left fun noLine => by simp [noLine] at inLine
    omega

def serialSetup : Setup Unit :=
  Setup.usual { ConsumerConfig.default with maxConcurrency := some 1 } Recovery.report
    Transport.prompt

/-- Two loops with one permit. A task of the first has it, and the second waits. -/
def crowdedEvents : List (Event Unit Unit) :=
  [.publish "q" none [], .publish "q" none [], .subscribe "q", .subscribe "q", .caller 0,
    .caller 1, .loop 0 true, .loop 0 true, .loop 0 true, .loop 0 true, .loop 0 true, .loop 0 true,
    .loop 1 true, .loop 1 true, .loop 1 true, .loop 1 true, .loop 1 true]

theorem limited_crowded :
    ∃ course system, ∃ loop ∈ system.loops,
      Exposed serialSetup (State.start serialSetup (Registry.empty : Registry (Handler Unit Unit))
          Broker.empty ()) course system ∧
        loop.isWaiting = true ∧
        system.tasks.countP Task.hasPermit + system.loops.countP Loop.hasPermit = 1 := by
  have seen : ((State.start serialSetup Registry.empty Broker.empty ()).follow serialSetup
      crowdedEvents).any (fun led => led.2.loops.any Loop.isWaiting) = true := by
    decide +kernel
  obtain ⟨⟨course, system⟩, followed, checked⟩ := (Option.any_eq_true _ _).mp seen
  obtain ⟨loop, taken, waits⟩ := List.any_eq_true.mp checked
  have exposed := (Run.start.follow followed).exposed
  have serial : serialSetup.config.maxConcurrency = some 1 := rfl
  obtain ⟨permits, _, _, _, _, waiting⟩ := Exposed.limited serial exposed
  exact ⟨_, _, loop, taken, exposed, waits, waiting loop taken waits⟩

end TaskQueue.Consumer
