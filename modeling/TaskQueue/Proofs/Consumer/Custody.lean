import TaskQueue.Proofs.Broker.Custody
import TaskQueue.Proofs.Consumer.Deeds

/-! Who has a delivery. A loop holds a delivery from when it pulled it until it starts a task for
it; the task tries once to end it. What was published to a queue that is not closed has been pulled
or still waits there. -/

namespace TaskQueue.Consumer

variable {σ ν : Type} {setup : Setup σ} {first system before after : State σ ν}
  {course : Course σ ν} {event : Event σ ν}

def LoopPhase.held : LoopPhase → List Delivery
  | .pulled _ delivery | .counted _ delivery => [delivery]
  | .waiting _ delivery | .starting _ delivery => [delivery]
  | _ => []

/-- The delivery that a loop has pulled but not yet handed to a task, with the queue of the loop. -/
def State.heldBy (system : State σ ν) (index : Nat) : List (String × Delivery) :=
  match system.loops[index]? with
  | none => []
  | some loop => loop.phase.held.map (loop.queue, ·)

def Task.handed (index : Nat) (task : Task σ ν) : Option (String × Delivery) :=
  if task.puller = index then some (task.queue, task.delivery) else none

/-- The deliveries that a loop handed to tasks, one for each task, with their queues. -/
def State.handedBy (system : State σ ν) (index : Nat) : List (String × Delivery) :=
  system.tasks.filterMap (Task.handed index)

theorem State.heldBy_of_finished {index : Nat} {loop : Loop}
    (found : system.loops[index]? = some loop) (finished : loop.phase = .finished) :
    system.heldBy index = [] := by
  simp [State.heldBy, found, finished, LoopPhase.held]

@[simp] theorem Loop.grant_held (loop : Loop) : loop.grant.phase.held = loop.phase.held :=
  loop.grant_same LoopPhase.held fun _ _ => rfl

theorem heldBy_of_frame {deed : Option (Deed σ ν)} (frame : TaskFrame before after deed)
    (index : Nat) : after.heldBy index = before.heldBy index := by
  unfold State.heldBy
  rcases frame.loops with same | ⟨granted, modified⟩
  · rw [same]
  · rw [modified, List.getElem?_modify]
    cases before.loops[index]? with
    | none => rfl
    | some loop =>
        by_cases isGranted : granted = index
        · simp [isGranted]
        · simp [isGranted]

theorem LoopMove.custody {heed : Bool} {queue : String} {phase next : LoopPhase}
    {pulled : Option Delivery} {broker : Broker}
    (move : LoopMove setup system heed queue phase pulled next broker) (index : Nat) :
    phase.held ++ pulled.toList =
      (phase.born queue index : List (Task σ ν)).map Task.delivery ++ next.held := by
  cases move with
  | openFailed _ _ => exact (LoopPhase.paused_same LoopPhase.held (fun _ => rfl) setup _).symm
  | ended _ =>
      split
      · rfl
      · exact (LoopPhase.paused_same LoopPhase.held (fun _ => rfl) setup _).symm
  | giveWay => split <;> rfl
  | _ => rfl

theorem handedBy_of_modify {doer : Nat} {next : TaskPhase σ ν}
    (moved : after.tasks = before.tasks.modify doer fun task => { task with phase := next })
    (index : Nat) : after.handedBy index = before.handedBy index := by
  unfold State.handedBy
  rw [moved]
  apply filterMap_modify
  intro task
  rfl

theorem handedBy_of_born {phase : LoopPhase} {queue : String} {puller : Nat}
    (born : after.tasks = before.tasks ++ phase.born queue puller) (index : Nat) :
    after.handedBy index = before.handedBy index ++
      if puller = index then
        ((phase.born queue puller : List (Task σ ν)).map Task.delivery).map (queue, ·) else [] := by
  unfold State.handedBy
  rw [born, List.filterMap_append]
  congr 1
  by_cases same : puller = index <;> cases phase <;> simp [LoopPhase.born, Task.handed, same]

theorem heldBy_of_modify {puller : Nat} {loop : Loop} {next : LoopPhase}
    (found : before.loops[puller]? = some loop)
    (moved : after.loops = before.loops.modify puller fun loop => { loop with phase := next })
    (index : Nat) :
    after.heldBy index =
      if puller = index then next.held.map (loop.queue, ·) else before.heldBy index := by
  unfold State.heldBy
  rw [moved, List.getElem?_modify]
  by_cases same : puller = index
  · subst index
    simp [found]
  · simp [same]

theorem heldBy_of_outside (frame : OutsideFrame before after event) (index : Nat) :
    after.heldBy index = before.heldBy index := by
  unfold State.heldBy
  rcases frame.loops with same | ⟨queue, _, added⟩
  · rw [same]
  · rw [added]
    by_cases old : index < before.loops.length
    · rw [List.getElem?_append_left old]
    · rw [List.getElem?_append_right (Nat.le_of_not_lt old),
        List.getElem?_eq_none (Nat.le_of_not_lt old)]
      cases index - before.loops.length <;> rfl

theorem custody_step {index : Nat} (stepped : before.step setup event = some after)
    (custody : course.pulledBy setup index = before.handedBy index ++ before.heldBy index) :
    (course ++ [(before, event)]).pulledBy setup index =
      after.handedBy index ++ after.heldBy index := by
  cases State.step_moved stepped with
  | task found move moved frame =>
      rw [Course.pulledBy_task, custody, heldBy_of_frame frame, handedBy_of_modify moved]
  | loop found pull move moved born frame =>
      rename_i puller heed loop pulled next
      rw [handedBy_of_born born, heldBy_of_modify found moved]
      by_cases same : puller = index
      · subst index
        have kept := congrArg (List.map (loop.queue, ·)) (move.custody puller)
        rw [List.map_append, List.map_append] at kept
        have pulledList : (pulled.map (loop.queue, ·)).toList =
            pulled.toList.map (loop.queue, ·) := by cases pulled <;> rfl
        have held : before.heldBy puller = loop.phase.held.map (loop.queue, ·) := by
          simp only [State.heldBy, found]
        rw [Course.pulledBy_loop, custody, pull, pulledList, held, if_pos rfl, if_pos rfl,
          List.append_assoc, kept, List.append_assoc]
      · have other : ∀ choice, Event.loop puller heed ≠ (Event.loop index choice : Event σ ν) :=
          fun _ equal => same (Event.loop.inj equal).1
        rw [Course.pulledBy_else other, custody, if_neg same, if_neg same, List.append_nil]
  | outside notTask notLoop frame =>
      rw [Course.pulledBy_else (notLoop index), custody, heldBy_of_outside frame]
      simp only [State.handedBy, frame.tasks]

theorem Run.custody (noTasks : first.tasks = []) (noLoops : first.loops = [])
    (run : Run setup first course system) (index : Nat) :
    course.pulledBy setup index = system.handedBy index ++ system.heldBy index := by
  induction run with
  | start =>
      simp only [State.handedBy, State.heldBy, noTasks, noLoops]
      rfl
  | step _ stepped ih => exact custody_step stepped ih

/-- A task that has tried to end its delivery did so once, and the others have not tried. -/
def Task.Called (deeds : List (Deed σ ν)) (task : Task σ ν) : Prop :=
  match task.phase with
  | .settled _ | .refused _ | .leaving | .finished =>
      ∃ verdict result,
        deeds.filterMap Deed.call? =
          [⟨task.delivery.tag, Verdict.termination verdict, result⟩]
  | .escaped _ | .uncaught _ => False
  | _ => deeds.filterMap Deed.call? = []

theorem recover_returns (returns : setup.recovery.Returns) (message : String)
    (span : Option Log.Span) : (system.recover setup message span).1 = none :=
  returns system.cancelled message system.shared

theorem TaskMove.called {task : Task σ ν} {deed : Option (Deed σ ν)} {next : TaskPhase σ ν}
    {deeds : List (Deed σ ν)} (returns : setup.recovery.Returns)
    (move : TaskMove setup system task.delivery task.queue task.phase deed next)
    (called : task.Called deeds) :
    Task.Called (deeds ++ deed.toList) { task with phase := next } := by
  obtain ⟨delivery, queue, puller, phase⟩ := task
  simp only [Task.Called] at called ⊢
  cases move with
  | recoverHandlerBroke broke | recoverBroke broke =>
      rw [recover_returns returns] at broke
      simp at broke
  | escape | recoverEscaped => exact called.elim
  | settle ended =>
      rename_i verdict
      exact ⟨verdict, .ok (), by simpa [Deed.call?] using called⟩
  | refuse ended =>
      rename_i verdict error
      exact ⟨verdict, .error error, by simpa [Deed.call?] using called⟩
  | _ => simpa [Deed.call?] using called

theorem Run.called (returns : setup.recovery.Returns) (noTasks : first.tasks = [])
    (run : Run setup first course system) {index : Nat} {task : Task σ ν}
    (found : system.tasks[index]? = some task) : task.Called (course.deeds setup index) :=
  (run.forall_tasks Task.Called noTasks (fun _ _ _ => rfl)
    fun _ _ _ _ _ _ _ move called => move.called returns called).1 index task found

theorem LoopMove.ends {heed : Bool} {queue : String} {phase next : LoopPhase}
    {pulled : Option Delivery} {broker : Broker}
    (move : LoopMove setup system heed queue phase pulled next broker) :
    broker.ends = system.broker.ends := by
  cases move with
  | opened _ consumed | openFailed _ consumed =>
      have same := system.broker.ends_consume queue (setup.config.consumerTag queue) .none
      rwa [consumed] at same
  | leaveStream _ => simp
  | pull polled | pending polled | ended polled =>
      have same := congrArg (fun answer => answer.2.ends) polled
      simpa using same.symm
  | _ => rfl

theorem LoopMove.log {heed : Bool} {queue : String} {phase next : LoopPhase}
    {pulled : Option Delivery} {broker : Broker}
    (move : LoopMove setup system heed queue phase pulled next broker) :
    broker.log = system.broker.log := congrArg Prod.fst move.ends

theorem TaskMove.log {delivery : Delivery} {queue : String} {phase next : TaskPhase σ ν}
    {deed : Option (Deed σ ν)} (move : TaskMove setup system delivery queue phase deed next)
    (index : Nat) :
    (Deed.broker system.broker deed).log = system.broker.log ++
      ((deed.map (Happening.task index)).bind Happening.recorded?).toList := by
  cases move with
  | settle ended | refuse ended =>
      simp only [Deed.broker, Broker.log_terminate, ended, Option.map_some, Option.bind_some,
        Happening.recorded?]
      rfl
  | _ => exact (List.append_nil _).symm

theorem OutsideFrame.ends (frame : OutsideFrame before after event)
    (unarranged : ∀ count, event ≠ .failTerminations count) :
    after.broker.ends = before.broker.ends := by
  rw [frame.broker]
  cases event with
  | failTerminations count => exact absurd rfl (unarranged count)
  | publish | publishTask | closeQueue => simp [Event.broker]
  | _ => rfl

theorem OutsideFrame.log (frame : OutsideFrame before after event) :
    after.broker.log = before.broker.log := by
  cases event with
  | failTerminations count => rw [frame.broker]; rfl
  | _ => exact congrArg Prod.fst (frame.ends nofun)

theorem Run.log (run : Run setup first course system) :
    system.broker.log = first.broker.log ++ course.recorded setup := by
  induction run with
  | start => exact (List.append_nil _).symm
  | step run stepped ih =>
      rename_i course before after event
      rw [Course.recorded, Course.gather_append, ← Course.recorded, ← List.append_assoc, ← ih]
      cases State.step_moved stepped with
      | task found move moved frame =>
          rw [frame.broker]
          exact move.log _
      | loop found pull move moved born frame =>
          rename_i puller heed loop pulled next
          rw [move.log]
          cases taken : before.pull? puller heed <;>
            simp [State.happening?, taken, Happening.recorded?]
      | outside notTask notLoop frame =>
          rw [frame.log]
          cases event with
          | task index => exact absurd rfl (notTask index)
          | loop index heed => exact absurd rfl (notLoop index heed)
          | _ => exact (List.append_nil _).symm

def LoopPhase.stream? : LoopPhase → Option Nat
  | .reading stream => some stream
  | .pulled stream _ | .counted stream _ => some stream
  | .waiting stream _ | .starting stream _ => some stream
  | _ => none

/-- The stream of a loop takes from an incarnation of the loop's queue, and from the current one if
that is the queue in question. -/
def Fed (queue : String) (broker : Broker) (loop : Loop) : Prop :=
  ∀ stream, loop.phase.stream? = some stream →
    ∃ index, broker.source? stream = some index ∧ broker.name? index = some loop.queue ∧
      (loop.queue = queue → broker.queues.get? queue = some index)

theorem Fed.kept {queue : String} {broker later : Broker} {entered left : List Delivery}
    {loop next : Loop} (fed : Fed queue broker loop)
    (balance : Broker.Balance queue broker later entered left) (sameQueue : next.queue = loop.queue)
    (sameStream : ∀ stream, next.phase.stream? = some stream →
      loop.phase.stream? = some stream) : Fed queue later next := by
  intro stream streams
  obtain ⟨index, source, named, current⟩ := fed stream (sameStream stream streams)
  rw [sameQueue]
  exact ⟨index, balance.grows.sources _ _ source, balance.grows.names _ _ named,
    fun same => balance.current index (current same)⟩

@[simp] theorem Loop.grant_stream (loop : Loop) : loop.grant.phase.stream? = loop.phase.stream? :=
  loop.grant_same LoopPhase.stream? fun _ _ => rfl

theorem LoopMove.stream {heed : Bool} {name : String} {phase next : LoopPhase}
    {pulled : Option Delivery} {broker : Broker} {stream : Nat}
    (move : LoopMove setup system heed name phase pulled next broker)
    (streams : next.stream? = some stream) :
    phase.stream? = some stream ∨
      system.broker.consume name (setup.config.consumerTag name) .none = (.ok stream, broker) := by
  cases move with
  | opened _ consumed =>
      obtain rfl := Option.some.inj streams
      exact Or.inr consumed
  | openFailed _ _ =>
      rw [LoopPhase.paused_same LoopPhase.stream? fun _ => rfl] at streams
      simp [LoopPhase.stream?] at streams
  | ended _ =>
      split at streams
      · simp [LoopPhase.stream?] at streams
      · rw [LoopPhase.paused_same LoopPhase.stream? fun _ => rfl] at streams
        simp [LoopPhase.stream?] at streams
  | giveWay => split at streams <;> simp [LoopPhase.stream?] at streams
  | pull _ | pending _ | count | getPermit | getInLine | startTask => exact Or.inl streams
  | _ => simp [LoopPhase.stream?] at streams

theorem LoopMove.balance {heed : Bool} {queue name : String} {phase next : LoopPhase}
    {pulled : Option Delivery} {broker : Broker} (sound : system.broker.Sound)
    (fed : Fed queue system.broker ⟨name, phase⟩)
    (move : LoopMove setup system heed name phase pulled next broker) :
    Broker.Balance queue system.broker broker [] (if name = queue then pulled.toList else []) := by
  cases move with
  | opened _ consumed | openFailed _ consumed =>
      have balance : Broker.Balance queue system.broker _ [] [] :=
        Broker.balance_consume sound name (setup.config.consumerTag name) .none
      rw [consumed] at balance
      rwa [Option.toList_none, ite_self]
  | leaveStream _ =>
      rw [Option.toList_none, ite_self]
      exact Broker.balance_dropStream sound _
  | pull polled | pending polled | ended polled =>
      obtain ⟨index, source, named, current⟩ := fed _ rfl
      have balance := Broker.balance_poll sound source named current
      rwa [polled] at balance
  | _ =>
      rw [Option.toList_none, ite_self]
      exact Broker.balance_of_same sound rfl rfl fun _ _ source => source

theorem Deed.balance {queue : String} {broker : Broker} (sound : broker.Sound)
    (deed : Option (Deed σ ν)) :
    Broker.Balance queue broker (Deed.broker broker deed) [] [] := by
  have same : Broker.Balance queue broker broker [] [] :=
    Broker.balance_of_same sound rfl rfl fun _ _ source => source
  cases deed with
  | none => exact same
  | some deed =>
      cases deed with
      | called call =>
          simp only [Deed.broker, Broker.terminate]
          split
          · exact Broker.balance_of_same sound rfl rfl fun _ _ source => source
          · exact Broker.balance_of_same sound rfl rfl fun _ _ source => source
      | _ => exact same

theorem OutsideFrame.balance {queue : String} (sound : before.broker.Sound)
    (unclosed : event ≠ .closeQueue queue) (notTask : ∀ index, event ≠ .task index)
    (notLoop : ∀ index heed, event ≠ .loop index heed) (frame : OutsideFrame before after event) :
    Broker.Balance queue before.broker after.broker
      ((before.happening? setup event).bind (Happening.publishedTo? queue)).toList [] := by
  rw [frame.broker]
  cases event with
  | task index => exact absurd rfl (notTask index)
  | loop index heed => exact absurd rfl (notLoop index heed)
  | publish name messageId body =>
      have balance : Broker.Balance queue before.broker
        (before.broker.publish name messageId body).2 _ _ :=
          Broker.balance_publish sound name messageId body
      simp only [Event.broker, State.happening?, Option.bind_some, Happening.publishedTo?]
      by_cases same : name = queue <;> simpa [same] using balance
  | publishTask ids name param =>
      have balance : Broker.Balance queue before.broker
        (before.broker.publishTask ids name param).2.2 _ _ :=
          Broker.balance_publishTask sound ids name param
      simp only [Event.broker, State.happening?, Option.bind_some, Happening.publishedTo?]
      by_cases same : name = queue <;> simpa [same] using balance
  | closeQueue name =>
      exact Broker.balance_closeQueue sound fun same => unclosed (same ▸ rfl)
  | _ => exact Broker.balance_of_same sound rfl rfl fun _ _ source => source

theorem TaskFrame.fed {queue : String} {deed : Option (Deed σ ν)} {entered left : List Delivery}
    (frame : TaskFrame before after deed)
    (balance : Broker.Balance queue before.broker after.broker entered left)
    (fed : ∀ loop ∈ before.loops, Fed queue before.broker loop) :
    ∀ loop ∈ after.loops, Fed queue after.broker loop := by
  intro loop taken
  rcases frame.mem_loops taken with old | ⟨known, old, rfl⟩
  · exact (fed loop old).kept balance rfl fun _ streams => streams
  · exact (fed known old).kept balance known.grant_queue fun _ streams =>
      known.grant_stream.symm.trans streams

theorem LoopMove.fed {queue : String} {heed : Bool} {loop : Loop} {next : LoopPhase}
    {pulled : Option Delivery} {broker : Broker} {entered left : List Delivery}
    (move : LoopMove setup system heed loop.queue loop.phase pulled next broker)
    (balance : Broker.Balance queue system.broker broker entered left)
    (fed : Fed queue system.broker loop) : Fed queue broker { loop with phase := next } := by
  intro stream streams
  rcases move.stream streams with old | consumed
  · exact fed.kept balance rfl (fun _ same => same) stream old
  · obtain ⟨index, source, current⟩ := Broker.consume_ok consumed
    exact ⟨index, source, balance.sound _ _ current, fun same => same ▸ current⟩

theorem OutsideFrame.fed {queue : String} {entered left : List Delivery}
    (frame : OutsideFrame before after event)
    (balance : Broker.Balance queue before.broker after.broker entered left)
    (fed : ∀ loop ∈ before.loops, Fed queue before.broker loop) :
    ∀ loop ∈ after.loops, Fed queue after.broker loop := by
  intro loop taken
  rcases frame.mem_loops taken with old | ⟨name, _, rfl⟩
  · exact (fed loop old).kept balance rfl fun _ streams => streams
  · intro stream streams
    simp [LoopPhase.stream?] at streams

/-- The account of a queue: its broker and its streams are in order, and what was there or came in
has been pulled or is still there. -/
structure Stocked (setup : Setup σ) (queue : String) (first : State σ ν) (course : Course σ ν)
    (system : State σ ν) : Prop where
  sound : system.broker.Sound
  fed : ∀ loop ∈ system.loops, Fed queue system.broker loop
  waiting : first.broker.waitingIn queue ++ course.publishedTo setup queue =
    course.pulledFrom setup queue ++ system.broker.waitingIn queue

theorem Stocked.step {queue : String} {entered left : List Delivery}
    (stocked : Stocked setup queue first course before)
    (balance : Broker.Balance queue before.broker after.broker entered left)
    (published : ((before.happening? setup event).bind (Happening.publishedTo? queue)).toList =
      entered)
    (pulled : ((before.happening? setup event).bind (Happening.pulledFrom? queue)).toList = left)
    (fed : ∀ loop ∈ after.loops, Fed queue after.broker loop) :
    Stocked setup queue first (course ++ [(before, event)]) after := by
  refine ⟨balance.sound, fed, ?_⟩
  rw [Course.publishedTo, Course.pulledFrom, Course.gather_append, Course.gather_append, published,
    pulled, ← Course.publishedTo, ← Course.pulledFrom, ← List.append_assoc, stocked.waiting,
    List.append_assoc, balance.waiting, List.append_assoc]

theorem Stocked.moved {queue : String} (stocked : Stocked setup queue first course before)
    (unclosed : event ≠ .closeQueue queue) (moved : Moved setup before after event) :
    Stocked setup queue first (course ++ [(before, event)]) after := by
  cases moved with
  | @task doer _ _ found move moved frame =>
      have balance : Broker.Balance queue before.broker after.broker [] [] := by
        rw [frame.broker]
        exact Deed.balance stocked.sound _
      refine stocked.step balance ?_ ?_ (frame.fed balance stocked.fed)
      · cases done : before.deed? setup doer <;>
          simp [State.happening?, done, Happening.publishedTo?]
      · cases done : before.deed? setup doer <;>
          simp [State.happening?, done, Happening.pulledFrom?]
  | @loop _ _ loop pulled _ found pull move moved born frame =>
      have fed := stocked.fed loop (List.mem_of_getElem? found)
      have balance := move.balance stocked.sound fed
      refine stocked.step balance ?_ ?_ ?_
      · cases pulled <;> simp [State.happening?, pull, Happening.publishedTo?]
      · cases pulled with
        | none => simp [State.happening?, pull]
        | some delivery =>
            by_cases same : loop.queue = queue <;>
              simp [State.happening?, pull, Happening.pulledFrom?, same]
      · intro other taken
        rw [moved] at taken
        rcases mem_modify taken with old | ⟨known, foundKnown, rfl⟩
        · exact (stocked.fed other old).kept balance rfl fun _ streams => streams
        · obtain rfl := Option.some.inj (found.symm.trans foundKnown)
          exact move.fed balance fed
  | outside notTask notLoop frame =>
      have balance : Broker.Balance queue before.broker after.broker
          ((before.happening? setup event).bind (Happening.publishedTo? queue)).toList [] :=
        frame.balance stocked.sound unclosed notTask notLoop
      refine stocked.step balance rfl ?_ (frame.fed balance stocked.fed)
      cases event with
      | task index => exact absurd rfl (notTask index)
      | loop index heed => exact absurd rfl (notLoop index heed)
      | _ => rfl

theorem Run.stocked {queue : String} (sound : first.broker.Sound) (noLoops : first.loops = [])
    (run : Run setup first course system)
    (unclosed : ∀ moment ∈ course, moment.2 ≠ .closeQueue queue) :
    Stocked setup queue first course system := by
  induction run with
  | start =>
      refine ⟨sound, ?_, List.append_nil _⟩
      intro loop taken
      simp [noLoops] at taken
  | @step course before _ event run stepped ih =>
      have stocked := ih fun moment taken => unclosed moment (List.mem_append_left _ taken)
      have openStill : event ≠ .closeQueue queue :=
        unclosed (before, event) (List.mem_append_right _ List.mem_cons_self)
      exact stocked.moved openStill (State.step_moved stepped)

theorem Task.Called.spec {deeds : List (Deed σ ν)} {task : Task σ ν} (called : task.Called deeds) :
    (deeds.filterMap Deed.call?).length ≤ 1 ∧
      (task.phase.isFinished = true → (deeds.filterMap Deed.call?).length = 1) ∧
      ∀ call ∈ deeds.filterMap Deed.call?, call.tag = task.delivery.tag ∧
        (call.termination = .ack false ∨ call.termination = .reject false) := by
  have tried : ∀ verdict result, deeds.filterMap Deed.call? =
      [⟨task.delivery.tag, Verdict.termination verdict, result⟩] →
      ∀ call ∈ deeds.filterMap Deed.call?, call.tag = task.delivery.tag ∧
        (call.termination = .ack false ∨ call.termination = .reject false) := by
    intro verdict result once call taken
    rw [once, List.mem_singleton] at taken
    subst call
    cases verdict with
    | ack => exact ⟨rfl, Or.inl rfl⟩
    | reject => exact ⟨rfl, Or.inr rfl⟩
  obtain ⟨delivery, queue, puller, phase⟩ := task
  cases phase with
  | settled _ | refused _ | leaving | finished =>
      obtain ⟨verdict, result, once⟩ := called
      exact ⟨by simp [once], fun _ => by simp [once], tried verdict result once⟩
  | escaped _ | uncaught _ => exact called.elim
  | _ =>
      have never : deeds.filterMap Deed.call? = [] := called
      rw [never]
      exact ⟨by simp, by simp [TaskPhase.isFinished], by simp⟩

/-- From the stream to the log. What a loop pulls it hands over in order, each delivery to a task of
its own, except for the one it still holds; a task makes at most one attempt to end its delivery,
exactly one by its end, and the log has the attempts that succeeded; and what was published to a
queue that has not been closed was pulled from it in order or still waits there. -/
theorem Run.terminates_once {registry : Registry (Handler σ ν)} {broker : Broker} {shared : σ}
    (returns : setup.recovery.Returns) (made : broker.Made)
    (run : Run setup (State.start setup registry broker shared) course system) :
    (∀ index, course.pulledBy setup index = system.handedBy index ++ system.heldBy index) ∧
      (∀ index loop, system.loops[index]? = some loop → loop.phase = .finished →
        course.pulledBy setup index = system.handedBy index) ∧
      (∀ index task, system.tasks[index]? = some task →
        (course.calls setup index).length ≤ 1 ∧
          (task.phase.isFinished = true → (course.calls setup index).length = 1) ∧
          ∀ call ∈ course.calls setup index, call.tag = task.delivery.tag ∧
            (call.termination = .ack false ∨ call.termination = .reject false)) ∧
      (∀ index, system.tasks.length ≤ index → course.calls setup index = []) ∧
      system.broker.log = broker.log ++ course.recorded setup ∧
      ∀ queue, (∀ moment ∈ course, moment.2 ≠ .closeQueue queue) →
        broker.waitingIn queue ++ course.publishedTo setup queue =
          course.pulledFrom setup queue ++ system.broker.waitingIn queue := by
  have custody := run.custody rfl rfl
  refine ⟨custody, ?stopped, ?calls, ?unknown, run.log, ?waiting⟩
  case stopped =>
    intro index loop found finished
    rw [custody, State.heldBy_of_finished found finished, List.append_nil]
  case calls =>
    intro index task found
    exact (run.called returns rfl found).spec
  case unknown =>
    intro index beyond
    rw [Course.calls, run.deeds_unknown rfl beyond]
    rfl
  case waiting =>
    intro queue unclosed
    exact (run.stocked made.sound rfl unclosed).waiting

def namelessEvents : List (Event Unit Unit) :=
  [.publish "q" none [], .subscribe "q", .caller 0, .loop 0 true, .loop 0 true, .loop 0 true,
    .loop 0 true, .loop 0 true, .loop 0 true, .task 0, .task 0, .task 0, .task 0]

theorem terminates_once_nameless :
    ∃ course system,
      Run plainSetup (State.start plainSetup Registry.empty Broker.empty ()) course system ∧
        (∃ task : Task Unit Unit, system.tasks[0]? = some task ∧ task.phase.isFinished = true) ∧
        (course.calls plainSetup 0).length = 1 := by
  have returns : plainSetup.recovery.Returns := fun _ _ _ => rfl
  obtain ⟨course, system, followed, task, found, finished⟩ : ∃ course system,
      (State.start plainSetup Registry.empty Broker.empty ()).follow plainSetup namelessEvents =
        some (course, system) ∧
      ∃ task, system.tasks[0]? = some task ∧ task.phase.isFinished = true :=
    ⟨_, _, rfl, _, rfl, rfl⟩
  have run := Run.start.follow followed
  have once := (Run.terminates_once returns Broker.Made.empty run).2.2.1 0 task found
  exact ⟨_, _, run, ⟨task, found, finished⟩, once.2.1 finished⟩

end TaskQueue.Consumer
