import TaskQueue.Proofs.Consumer.Permits
import TaskQueue.Proofs.Consumer.Session
import TaskQueue.Proofs.Consumer.Still
import TaskQueue.Proofs.Demo.Stages

/-!
Greetings among the tasks of a consumer. Each call that is made in a run goes through its stages,
whatever other tasks, loops and callers do between two of its steps, so that what is left of the
failures and how many greetings fail can be told from the stages of all tasks.
-/

namespace TaskQueue.Demo

open Consumer

def Admitted (name : String) (handler : Handler Remaining Log.Line) : Prop :=
  if name = Hello.type.name then handler = Hello.type.handler greet
  else ∀ context param, (handler context param).Still

/-- The call of a greeting. Where the params are not of the form nobody is greeted. -/
def isGreeting : Deed Remaining Log.Line → Bool
  | .invoked invocation =>
      invocation.param.taskName == Hello.type.name &&
        (Hello.type.take invocation.param.params).isOk
  | _ => false

def isAnswer : Deed Remaining Log.Line → Bool
  | .answered _ _ => true
  | _ => false

def isFailure : Deed Remaining Log.Line → Bool
  | .answered _ (.returned (.error (.handler _))) => true
  | _ => false

def greetings (setup : Setup Remaining) (course : Course Remaining Log.Line)
    (system : State Remaining Log.Line) : List Nat :=
  (List.range system.tasks.length).filter fun index => (course.deeds setup index).any isGreeting

def failures (setup : Setup Remaining) (course : Course Remaining Log.Line)
    (system : State Remaining Log.Line) : List Nat :=
  (List.range system.tasks.length).filter fun index =>
    (course.deeds setup index).any isGreeting && (course.deeds setup index).any isFailure

def takes (task : Task Remaining Log.Line) : Bool :=
  match task.phase with
  | .running _ (.access change _) _ => change 1 == 0
  | _ => false

/-- More tasks are about to take a failure than are left. -/
def Overdrawn (system : State Remaining Log.Line) : Prop :=
  system.shared.toNat < system.tasks.countP takes

def Throughout (fact : State Remaining Log.Line → Prop) (course : Course Remaining Log.Line)
    (system : State Remaining Log.Line) : Prop :=
  (∀ moment ∈ course, fact moment.1) ∧ fact system

def Thrifty (course : Course Remaining Log.Line) (system : State Remaining Log.Line) : Prop :=
  Throughout (fun now => ¬Overdrawn now) course system

def Single (course : Course Remaining Log.Line) (system : State Remaining Log.Line) : Prop :=
  Throughout (fun now => now.tasks.countP takes ≤ 1) course system

inductive Working : Stage → Work Remaining Log.Line → Prop
  | looking {context : Context} {task : Hello} : Working .looking (greet context task)
  | taking {text : String} :
      Working .taking (.access (· - 1) fun _ => Work.fail (.handler text))
  | taken {text : String} : Working .taken (Work.fail (.handler text))
  | passing {told : Log.Line} : Working .passing (.note told Work.succeed)
  | told : Working .passing Work.succeed

def isPast : TaskPhase Remaining Log.Line → Bool
  | .fresh | .unpacked _ | .borrowed _ | .decoded _ | .checked _ | .running _ _ _
  | .sleeping _ _ _ _ => false
  | _ => true

/-- A task that has done these deeds and is in this phase is at this stage of a greeting. -/
inductive Greeting (deeds : List (Deed Remaining Log.Line)) :
    TaskPhase Remaining Log.Line → Stage → Prop
  | absent {phase : TaskPhase Remaining Log.Line} : deeds.any isGreeting = false →
      (isPast phase = false → deeds.any isAnswer = false) → phase.Still →
      Greeting deeds phase .absent
  | running {item : Item} {work : Work Remaining Log.Line} {deadline : Option Deadline}
      {stage : Stage} : deeds.any isGreeting = true → deeds.any isAnswer = false →
      Working stage work → Greeting deeds (.running item work deadline) stage
  | failed {phase : TaskPhase Remaining Log.Line} : deeds.any isGreeting = true →
      deeds.any isFailure = true → isPast phase = true → Greeting deeds phase .failed
  | passed {phase : TaskPhase Remaining Log.Line} : deeds.any isGreeting = true →
      deeds.any isAnswer = true → deeds.any isFailure = false → isPast phase = true →
      Greeting deeds phase .passed

section Stages

variable {setup : Setup Remaining} {first before after system : State Remaining Log.Line}
  {course : Course Remaining Log.Line} {event : Event Remaining Log.Line} {index : Nat}
  {deeds : List (Deed Remaining Log.Line)} {phase next : TaskPhase Remaining Log.Line}
  {stage : Stage}

theorem throughout_concat (fact : State Remaining Log.Line → Prop) :
    Throughout fact (course ++ [(before, event)]) after ↔
      Throughout fact course before ∧ fact after := by
  simp only [Throughout, List.forall_mem_append, List.forall_mem_singleton]

theorem any_isAnswer_of_failure (fails : deeds.any isFailure = true) :
    deeds.any isAnswer = true := by
  obtain ⟨deed, taken, isOne⟩ := List.any_eq_true.mp fails
  refine List.any_eq_true.mpr ⟨deed, taken, ?_⟩
  cases deed with
  | answered moment answer => rfl
  | _ => cases isOne

theorem any_isFailure_of_unanswered (unanswered : deeds.any isAnswer = false) :
    deeds.any isFailure = false := by
  rw [Bool.eq_false_iff] at unanswered ⊢
  exact fun fails => unanswered (any_isAnswer_of_failure fails)

namespace Greeting

theorem calls (greeting : Greeting deeds phase stage) : deeds.any isGreeting = stage.isCall := by
  cases greeting with
  | running called _ working => cases working <;> exact called
  | _ => assumption

theorem answered (greeting : Greeting deeds phase stage) (called : stage.isCall = true) :
    deeds.any isAnswer = stage.isOver := by
  cases greeting with
  | absent => cases called
  | running _ unanswered working => cases working <;> exact unanswered
  | failed _ fails => exact any_isAnswer_of_failure fails
  | passed _ answered => exact answered

theorem failure (greeting : Greeting deeds phase stage) :
    (deeds.any isGreeting && deeds.any isFailure) = stage.hasFailed := by
  cases greeting with
  | absent uncalled => simp [uncalled, Stage.hasFailed]
  | running _ unanswered working =>
      have unfailed := any_isFailure_of_unanswered unanswered
      cases working <;> simp [unfailed, Stage.hasFailed]
  | failed called fails => simp [called, fails, Stage.hasFailed]
  | passed _ _ unfailed => simp [unfailed, Stage.hasFailed]

theorem takes_eq {delivery : Delivery} {queue : String} {puller : Nat}
    (greeting : Greeting deeds phase stage) :
    takes ⟨delivery, queue, puller, phase⟩ = stage.isTaking := by
  cases greeting with
  | absent _ _ still =>
      cases phase with
      | running item work deadline =>
          cases work with
          | access change next =>
              have same : change 1 = 1 := still.1 1
              simp [takes, same, Stage.isTaking]
          | _ => rfl
      | _ => rfl
  | running _ _ working => cases working <;> rfl
  | failed _ _ past | passed _ _ _ past => cases phase <;> first | rfl | cases past

end Greeting

theorem past_move {delivery : Delivery} {queue : String} {deed : Option (Deed Remaining Log.Line)}
    (move : TaskMove setup system delivery queue phase deed next) (past : isPast phase = true) :
    isPast next = true ∧
      ∀ done ∈ deed, isGreeting done = false ∧ isAnswer done = false ∧ isFailure done = false := by
  cases move <;> simp_all [isPast, isGreeting, isAnswer, isFailure]

theorem still_of_past (past : isPast phase = true) : phase.Still := by
  cases phase <;> trivial

theorem Working.step {work : Work Remaining Log.Line} {queue : String} {item : Item}
    {deadline : Option Deadline} (working : Working stage work)
    (called : deeds.any isGreeting = true) (unanswered : deeds.any isAnswer = false)
    (stepped : system.stepWork index queue item deadline work = some after) :
    ∃ next later,
      after.tasks = system.tasks.modify index (fun task => { task with phase := next }) ∧
        Stage.Move system.shared stage later after.shared ∧
        Greeting (deeds ++ ((system.answer? deadline work).map (.answered system.now)).toList)
          next later := by
  have unfailed := any_isFailure_of_unanswered unanswered
  cases working with
  | looking =>
      simp only [greet, State.stepWork, Option.some.injEq] at stepped
      subst after
      by_cases some : 0 < system.shared
      · rw [if_pos some]
        exact ⟨_, .taking, rfl, .draw some,
          by simpa [greet, State.answer?] using .running called unanswered .taking⟩
      · rw [if_neg some]
        exact ⟨_, .passing, rfl, .pass some,
          by simpa [greet, State.answer?] using .running called unanswered .passing⟩
  | taking =>
      simp only [State.stepWork, Option.some.injEq] at stepped
      subst after
      exact ⟨_, .taken, rfl, .take,
        by simpa [State.answer?] using .running called unanswered .taken⟩
  | taken =>
      simp only [Work.fail, State.stepWork, Option.some.injEq] at stepped
      subst after
      refine ⟨_, .failed, rfl, .fail, .failed ?_ ?_ rfl⟩ <;>
        simp [called, Work.fail, State.answer?, isFailure]
  | passing =>
      simp only [State.stepWork, Option.some.injEq] at stepped
      subst after
      exact ⟨_, .passing, rfl, .rest,
        by simpa [State.answer?] using .running called unanswered .told⟩
  | told =>
      simp only [Work.succeed, State.stepWork, Option.some.injEq] at stepped
      subst after
      refine ⟨_, .passed, rfl, .succeed, .passed ?_ ?_ ?_ rfl⟩ <;>
        simp [called, unfailed, Work.succeed, State.answer?, isAnswer, isFailure]

theorem Greeting.call {item : Item} {handler : Handler Remaining Log.Line} {context : Context}
    {deadline : Option Deadline} {moment : Nat}
    (admitted : Admitted item.lease.param.taskName handler)
    (uncalled : deeds.any isGreeting = false) (unanswered : deeds.any isAnswer = false)
    (left : Remaining) :
    ∃ later, Stage.Move left .absent later left ∧
      Greeting (deeds ++ [.invoked ⟨moment, handler, context, item.lease.param⟩])
        (.running item (handler context item.lease.param) deadline) later := by
  unfold Admitted at admitted
  split at admitted
  · rename_i named
    subst handler
    unfold TaskType.handler
    cases taken : Hello.type.take item.lease.param.params with
    | ok task =>
        refine ⟨.looking, .call, .running ?_ ?_ .looking⟩
        · simp [isGreeting, named, taken, Except.isOk, Except.toBool]
        · simpa [isAnswer] using unanswered
    | error error =>
        refine ⟨.absent, .rest, .absent ?_ (fun _ => ?_) trivial⟩
        · simpa [isGreeting, taken, Except.isOk, Except.toBool] using uncalled
        · simpa [isAnswer] using unanswered
  · rename_i named
    refine ⟨.absent, .rest, .absent ?_ (fun _ => ?_) (admitted context item.lease.param)⟩
    · simpa [isGreeting, named] using uncalled
    · simpa [isAnswer] using unanswered

theorem Greeting.absent_move {delivery : Delivery} {queue : String}
    {deed : Option (Deed Remaining Log.Line)} (admits : before.registry.Holds Admitted)
    (uncalled : deeds.any isGreeting = false)
    (unanswered : isPast phase = false → deeds.any isAnswer = false) (still : phase.Still)
    (move : TaskMove setup before delivery queue phase deed next) (left : Remaining) :
    ∃ later, Stage.Move left .absent later left ∧ Greeting (deeds ++ deed.toList) next later := by
  cases move with
  | invoke looked => exact Greeting.call (admits _ _ looked) uncalled (unanswered rfl) left
  | work following =>
      exact ⟨.absent, .rest, .absent (by simpa using uncalled)
        (fun _ => by simpa using unanswered rfl) (still.next following.next)⟩
  | sleep | wake _ =>
      exact ⟨.absent, .rest, .absent (by simpa using uncalled)
        (fun _ => by simpa using unanswered rfl) still⟩
  | _ =>
      refine ⟨.absent, .rest, .absent ?_ ?_ trivial⟩
      · simpa [isGreeting] using uncalled
      · simp_all [isPast, isAnswer]

theorem Greeting.step {task : Task Remaining Log.Line} (admits : before.registry.Holds Admitted)
    (recovers : setup.recovery.Still) (found : before.tasks[index]? = some task)
    (stepped : before.stepTask setup index = some after)
    (greeting : Greeting deeds task.phase stage) :
    ∃ next later,
      after.tasks = before.tasks.modify index (fun task => { task with phase := next }) ∧
        Stage.Move before.shared stage later after.shared ∧
        Greeting (deeds ++ (before.deed? setup index).toList) next later := by
  obtain ⟨next, step⟩ := State.stepTask_step found stepped
  have move := step.move
  have moved := step.tasks
  have untouched (still : task.phase.Still) : after.shared = before.shared :=
    (congrArg World.shared step.effect.world).trans (still.shared recovers)
  obtain ⟨delivery, queue, puller, phase⟩ := task
  cases greeting with
  | absent uncalled unanswered still =>
      rw [untouched still]
      obtain ⟨later, staged, greeting⟩ :=
        Greeting.absent_move admits uncalled unanswered still move before.shared
      exact ⟨next, later, moved, staged, greeting⟩
  | running called unanswered working =>
      -- the moves do not say what was read, so the step itself is looked at
      simp only [State.stepTask, found] at stepped
      simpa only [State.deed?, found] using working.step called unanswered stepped
  | failed called fails past =>
      rw [untouched (still_of_past past)]
      refine ⟨next, .failed, moved, .rest, .failed ?_ ?_ (past_move move past).1⟩ <;>
        simp [called, fails]
  | passed called answered unfailed past =>
      obtain ⟨later, silent⟩ := past_move move past
      rw [untouched (still_of_past past)]
      refine ⟨next, .passed, moved, .rest, .passed ?_ ?_ ?_ later⟩
      · simp [called]
      · simp [answered]
      · simpa [unfailed] using fun done taken => (silent done taken).2.2

structure Staged (setup : Setup Remaining) (course : Course Remaining Log.Line)
    (system : State Remaining Log.Line) (stages : List Stage) : Prop where
  length : stages.length = system.tasks.length
  each : ∀ index task stage, system.tasks[index]? = some task → stages[index]? = some stage →
    Greeting (course.deeds setup index) task.phase stage

/-- What the stages of all tasks tell of the failures that are left. -/
structure Tallied (setup : Setup Remaining) (count : Remaining)
    (course : Course Remaining Log.Line) (system : State Remaining Log.Line)
    (stages : List Stage) : Prop where
  staged : Staged setup course system stages
  sound : Stage.Sound count system.shared stages
  thrifty : Thrifty course system ↔ stages.countP Stage.hasDrawn ≤ count.toNat
  single : Single course system → stages.countP Stage.hasDrawn ≤ count.toNat

variable {count : Remaining} {stages others : List Stage}

theorem Staged.countP_takes (staged : Staged setup course system stages) :
    system.tasks.countP takes = stages.countP Stage.isTaking := by
  have places : system.tasks.map takes = stages.map Stage.isTaking := by
    apply List.ext_getElem (by simp [staged.length])
    intro index bound other
    simp only [List.length_map] at bound other
    rw [List.getElem_map, List.getElem_map]
    have greeting := staged.each index _ _ (List.getElem?_eq_getElem bound)
      (List.getElem?_eq_getElem other)
    exact greeting.takes_eq
  have counted := congrArg (List.countP id) places
  rwa [List.countP_map, List.countP_map] at counted

theorem Staged.step_task {task : Task Remaining Log.Line}
    (staged : Staged setup course before stages) (admits : before.registry.Holds Admitted)
    (recovers : setup.recovery.Still) (found : before.tasks[index]? = some task)
    (stepped : before.stepTask setup index = some after) :
    ∃ others, Stage.Shift before.shared stages others after.shared ∧
      Staged setup (course ++ [(before, .task index)]) after others := by
  have bound := staged.length ▸ (List.getElem?_eq_some_iff.mp found).1
  have standing := List.getElem?_eq_getElem bound
  obtain ⟨phase, later, moved, move, greeting⟩ :=
    (staged.each index task _ found standing).step admits recovers found stepped
  refine ⟨_, .move standing move, ?length, ?each⟩
  case length => rw [moved, List.length_modify, List.length_modify, staged.length]
  case each =>
    intro other current stage foundCurrent foundStage
    rw [moved, List.getElem?_modify] at foundCurrent
    rw [List.getElem?_modify] at foundStage
    by_cases same : index = other
    · subst other
      simp only [if_true, found, standing, Option.map_eq_map, Option.map_some,
        Option.some.injEq] at foundCurrent foundStage
      subst current stage
      rw [Course.deeds_task]
      exact greeting
    · simp only [if_neg same, id_map'] at foundCurrent foundStage
      rw [Course.deeds_else fun equal => same (Event.task.inj equal)]
      exact staged.each other current stage foundCurrent foundStage

theorem Staged.step_else {fresh : List (Task Remaining Log.Line)}
    (staged : Staged setup course before stages)
    (unknown : ∀ index, before.tasks.length ≤ index → course.deeds setup index = [])
    (notTask : ∀ index, event ≠ .task index) (added : after.tasks = before.tasks ++ fresh)
    (new : ∀ task ∈ fresh, task.phase = .fresh) :
    Staged setup (course ++ [(before, event)]) after
      (stages ++ List.replicate fresh.length .absent) := by
  constructor
  · rw [added, List.length_append, List.length_append, List.length_replicate, staged.length]
  · intro index task stage foundTask foundStage
    rw [Course.deeds_else (notTask index)]
    rw [added] at foundTask
    by_cases old : index < before.tasks.length
    · rw [List.getElem?_append_left old] at foundTask
      rw [List.getElem?_append_left (staged.length ▸ old)] at foundStage
      exact staged.each index task stage foundTask foundStage
    · have beyond := Nat.le_of_not_lt old
      rw [List.getElem?_append_right beyond] at foundTask
      rw [List.getElem?_append_right (staged.length ▸ beyond)] at foundStage
      obtain rfl := List.eq_of_mem_replicate (List.mem_of_getElem? foundStage)
      rw [unknown index beyond, new task (List.mem_of_getElem? foundTask)]
      exact .absent rfl (fun _ => rfl) trivial

theorem Staged.step (staged : Staged setup course before stages)
    (unknown : ∀ index, before.tasks.length ≤ index → course.deeds setup index = [])
    (admits : before.registry.Holds Admitted) (recovers : setup.recovery.Still)
    (stepped : before.step setup event = some after) :
    ∃ others, Stage.Shift before.shared stages others after.shared ∧
      Staged setup (course ++ [(before, event)]) after others := by
  by_cases isTask : ∃ index, event = .task index
  · obtain ⟨index, rfl⟩ := isTask
    obtain ⟨task, found⟩ := State.stepTask_found stepped
    exact staged.step_task admits recovers found stepped
  · have notTask (index : Nat) (same : event = .task index) : False := isTask ⟨index, same⟩
    rw [State.step_shared recovers notTask stepped]
    cases State.step_moved stepped with
    | task _ _ _ _ => exact absurd rfl (notTask _)
    | loop _ _ _ _ born _ =>
        refine ⟨_, .join _, staged.step_else unknown notTask born ?_⟩
        intro task fresh
        obtain ⟨delivery, rfl⟩ := LoopPhase.mem_born fresh
        rfl
    | outside _ _ frame =>
        have same := frame.tasks.trans (List.append_nil _).symm
        exact ⟨_, .join _, staged.step_else unknown notTask same (by simp)⟩

theorem Tallied.shift (tallied : Tallied setup count course before stages)
    (shift : Stage.Shift before.shared stages others after.shared)
    (staged : Staged setup (course ++ [(before, event)]) after others) :
    Tallied setup count (course ++ [(before, event)]) after others := by
  have taking := staged.countP_takes
  refine ⟨staged, tallied.sound.shift shift, ?thrifty, ?single⟩
  case thrifty =>
    rw [← tallied.sound.drawn_iff shift, ← tallied.thrifty, ← taking]
    exact throughout_concat _
  case single =>
    intro single
    obtain ⟨earlier, now⟩ := (throughout_concat _).mp single
    exact tallied.sound.drawn_le_of_single shift (tallied.single earlier) (taking ▸ now)

theorem exists_tallied (admits : first.registry.Holds Admitted) (recovers : setup.recovery.Still)
    (noTasks : first.tasks = []) (exposed : Exposed setup first course system)
    (registers : ∀ moment ∈ course, moment.2.Registers Admitted) :
    ∃ stages, Tallied setup first.shared course system stages := by
  induction exposed with
  | start =>
      have thrifty : Throughout (fun now => ¬Overdrawn now) [] first := by
        simp [Throughout, Overdrawn, noTasks]
      have whole := Nat.mod_eq_of_lt first.shared.toNat_lt
      exact ⟨[], ⟨by simp [noTasks], by simp⟩, ⟨whole, by simp⟩,
        iff_of_true thrifty (Nat.zero_le _), fun _ => Nat.zero_le _⟩
  | step exposed stepped ih =>
      have earlier := fun moment taken => registers moment (List.mem_append_left _ taken)
      obtain ⟨stages, tallied⟩ := ih earlier
      obtain ⟨others, shift, staged⟩ := tallied.staged.step
        (fun _ beyond => exposed.deeds_unknown noTasks beyond) (exposed.holds admits earlier)
        recovers stepped
      exact ⟨others, tallied.shift shift staged⟩
  | elsewhere broker now _ ih =>
      obtain ⟨stages, ⟨length, each⟩, sound, thrifty, single⟩ := ih registers
      exact ⟨stages, ⟨length, each⟩, sound, thrifty, single⟩

namespace Tallied

variable (tallied : Tallied setup count course system stages)

include tallied

theorem greeting (standing : stages[index]? = some stage) :
    index < system.tasks.length ∧
      ∃ phase, Greeting (course.deeds setup index) phase stage := by
  have bound := tallied.staged.length ▸ (List.getElem?_eq_some_iff.mp standing).1
  exact ⟨bound, _, tallied.staged.each index _ stage (List.getElem?_eq_getElem bound) standing⟩

theorem length_greetings :
    (greetings setup course system).length = stages.countP Stage.isCall := by
  rw [greetings, ← tallied.staged.length]
  apply length_filter_range
  intro index stage standing
  obtain ⟨_, _, greeting⟩ := tallied.greeting standing
  exact greeting.calls

theorem length_failures :
    (failures setup course system).length = stages.countP Stage.hasFailed := by
  rw [failures, ← tallied.staged.length]
  apply length_filter_range
  intro index stage standing
  obtain ⟨_, _, greeting⟩ := tallied.greeting standing
  exact greeting.failure

theorem all_over (answered : ∀ index ∈ greetings setup course system,
      (course.deeds setup index).any isAnswer = true) :
    ∀ stage ∈ stages, stage.isCall = true → stage.isOver = true := by
  intro stage taken called
  obtain ⟨index, standing⟩ := List.mem_iff_getElem?.mp taken
  obtain ⟨bound, _, greeting⟩ := tallied.greeting standing
  rw [← greeting.answered called]
  apply answered
  rw [greetings, List.mem_filter, List.mem_range]
  exact ⟨bound, greeting.calls.trans called⟩

theorem left_le (thrifty : Thrifty course system) : system.shared ≤ count := by
  have few := tallied.thrifty.mp thrifty
  have drawn := Stage.countP_drawn stages
  have whole := tallied.sound.left_eq (by omega)
  rw [UInt32.le_iff_toNat_le]
  omega

end Tallied

theorem single_of_limit {registry : Registry (Handler Remaining Log.Line)} {broker : Broker}
    (limited : setup.config.maxConcurrency = some 1)
    (exposed : Exposed setup (State.start setup registry broker count) course system) :
    Single course system := by
  have few {earlier : Course Remaining Log.Line} {now : State Remaining Log.Line}
      (exposed : Exposed setup (State.start setup registry broker count) earlier now) :
      now.tasks.countP takes ≤ 1 := by
    have present : (State.start setup registry broker count).permits = some ⟨1, []⟩ := by
      simp [State.start, limited]
    obtain ⟨permits, licensed⟩ := exposed.exists_licensed present rfl rfl
    have whole := licensed.whole
    have fewer : now.tasks.countP takes ≤ now.tasks.countP Task.hasPermit := by
      refine List.countP_mono_left fun task _ taking => ?_
      obtain ⟨delivery, queue, puller, phase⟩ := task
      cases phase <;> first | rfl | cases taking
    omega
  refine ⟨fun moment taken => ?_, few exposed⟩
  obtain ⟨earlier, later, rfl⟩ := List.append_of_mem taken
  exact few exposed.split.1

/-- Greetings fail as often as they should just if they are thrifty. As long as no more tasks are
about to take a failure than are left, what is left does not exceed what there was; for tasks that
work one at a time this is so. When all greetings have been answered, what is left is what there was
less the failures, up to the size of the counter. No fewer have failed than should, and more have,
with more left than there was, just if at some moment more tasks were about to take a failure than
were left. -/
theorem greetings_counted {registry : Registry (Handler Remaining Log.Line)} {broker : Broker}
    (admits : registry.Holds Admitted) (recovers : setup.recovery.Still)
    (registers : ∀ moment ∈ course, moment.2.Registers Admitted)
    (exposed : Exposed setup (State.start setup registry broker count) course system) :
    (Thrifty course system → system.shared ≤ count) ∧
      (setup.config.maxConcurrency = some 1 → Thrifty course system) ∧
      ((∀ index ∈ greetings setup course system,
          (course.deeds setup index).any isAnswer = true) →
        system.shared = count - UInt32.ofNat (failures setup course system).length ∧
          min count.toNat (greetings setup course system).length ≤
            (failures setup course system).length ∧
          ((failures setup course system).length =
              min count.toNat (greetings setup course system).length ↔ Thrifty course system) ∧
          ((failures setup course system).length < UInt32.size →
            (system.shared ≤ count ↔ Thrifty course system))) := by
  obtain ⟨stages, tallied⟩ := exists_tallied admits recovers rfl exposed registers
  refine ⟨tallied.left_le, ?limited, ?answered⟩
  case limited =>
    intro limited
    exact tallied.thrifty.mpr (tallied.single (single_of_limit limited exposed))
  case answered =>
    intro answered
    have ended := tallied.all_over answered
    rw [tallied.length_greetings, tallied.length_failures, tallied.thrifty]
    exact ⟨tallied.sound.left_of_over ended, tallied.sound.min_le_failed ended,
      tallied.sound.failed_eq_iff ended, tallied.sound.left_le_iff ended⟩

end Stages

theorem registry_holds : registry.Holds Admitted := by
  refine (Registry.Holds.empty.register ?_).register ?_
  · intro _ _
    trivial
  · rfl

def numbered : Broker := (publishAll fun number => ⟨toString number⟩).1

def serial : Setup Remaining := setup { ConsumerConfig.default with maxConcurrency := some 1 }

def serialEvents : List (Event Remaining Log.Line) := List.flatten [
  [.subscribe queue, .caller 0], List.replicate 6 (.loop 0 true), List.replicate 11 (.task 0),
  List.replicate 4 (.loop 0 true), List.replicate 12 (.task 1), List.replicate 4 (.loop 0 true),
  List.replicate 12 (.task 2)]

theorem greetings_counted_serial :
    ∃ (course : Course Remaining Log.Line) (system : State Remaining Log.Line),
      Exposed serial (State.start serial registry numbered 1) course system ∧
        (∀ index ∈ greetings serial course system,
          (course.deeds serial index).any isAnswer = true) ∧
        (greetings serial course system).length = 2 ∧ system.shared ≤ 1 ∧
        (failures serial course system).length = 1 := by
  have seen : ((State.start serial registry numbered 1).follow serial serialEvents).any (fun led =>
      greetings serial led.1 led.2 == [1, 2] &&
        (greetings serial led.1 led.2).all fun index =>
          (led.1.deeds serial index).any isAnswer) = true := by
    decide +kernel
  obtain ⟨⟨course, system⟩, followed, checked⟩ := (Option.any_eq_true _ _).mp seen
  simp only [Bool.and_eq_true, beq_iff_eq, List.all_eq_true] at checked
  obtain ⟨called, answered⟩ := checked
  have exposed := (Run.start.follow followed).exposed
  have quiet : ∀ event ∈ serialEvents, event.isQuiet = true := by decide
  have registers : ∀ moment ∈ course, moment.2.Registers Admitted := fun moment taken =>
    Event.registers_of_quiet (quiet _ (follow_events followed ▸ List.mem_map_of_mem taken))
  obtain ⟨left, limited, whole⟩ :=
    greetings_counted registry_holds (fun _ _ _ => rfl) registers exposed
  have thrifty := limited rfl
  obtain ⟨_, _, counted, _⟩ := whole answered
  refine ⟨course, system, exposed, answered, congrArg List.length called, left thrifty, ?_⟩
  rw [counted.mpr thrifty, called]
  rfl

/-- Two greetings look before either of them takes the one failure that is left. -/
def racingEvents : List (Event Remaining Log.Line) := List.flatten [
  [.subscribe queue, .caller 0], List.replicate 14 (.loop 0 true), List.replicate 6 (.task 1),
  List.replicate 6 (.task 2), [.task 1, .task 2, .task 1, .task 2]]

/-- A run of the demonstration in which both greetings fail, and more failures are left than there
were. -/
theorem exists_greetings_overdrawn :
    ∃ (course : Course Remaining Log.Line) (system : State Remaining Log.Line),
      Run (setup .default) (State.start (setup .default) registry numbered 1) course system ∧
        (∀ index ∈ greetings (setup .default) course system,
          (course.deeds (setup .default) index).any isAnswer = true) ∧
        ¬system.shared ≤ 1 ∧
        (failures (setup .default) course system).length ≠
          min 1 (greetings (setup .default) course system).length := by
  have seen : ((State.start (setup .default) registry numbered 1).follow (setup .default)
      racingEvents).any (fun led =>
        greetings (setup .default) led.1 led.2 == [1, 2] &&
          failures (setup .default) led.1 led.2 == [1, 2] && led.2.shared == 4294967295 &&
          (greetings (setup .default) led.1 led.2).all fun index =>
            (led.1.deeds (setup .default) index).any isAnswer) = true := by
    decide +kernel
  obtain ⟨⟨course, system⟩, followed, checked⟩ := (Option.any_eq_true _ _).mp seen
  simp only [Bool.and_eq_true, beq_iff_eq, List.all_eq_true] at checked
  obtain ⟨⟨⟨called, failed⟩, left⟩, answered⟩ := checked
  refine ⟨course, system, Run.start.follow followed, answered, ?_, ?_⟩
  · rw [left]
    decide
  · rw [called, failed]
    decide

theorem exists_run_finished (config : ConsumerConfig) (system : State Remaining Log.Line) :
    ∃ course, Run (setup config) system course (finished config system).system := by
  have subscribed : Session.Reached (setup config) system
      ((Session.ofSystem (setup config) system).request fun before =>
        ((), before.subscribe queue)).2 := Session.Reached.start.request (.subscribe queue) rfl
  exact subscribed.settle.snapshot.finish.exists_run

end TaskQueue.Demo
