import TaskQueue.Proofs.Broker.Labels
import TaskQueue.Proofs.Consumer.Tags

/-!
Where each delivery is, with the name of its queue. Whatever was there or was published waits in the
broker, is held by a loop of its queue or has a task of its own with the name of its queue; it is in
one of these places, once. This holds of queues that are closed and opened again as of any other.
-/

namespace TaskQueue.Consumer

variable {σ ν : Type} {setup : Setup σ} {first system before after : State σ ν}
  {course : Course σ ν} {event : Event σ ν}

def Task.label (task : Task σ ν) : String × Delivery := (task.queue, task.delivery)

def Loop.labels (loop : Loop) : List (String × Delivery) := loop.phase.held.map (loop.queue, ·)

/-- What loops hold and tasks have, each delivery with its queue. -/
def State.carried (system : State σ ν) : List (String × Delivery) :=
  system.loops.flatMap Loop.labels ++ system.tasks.map Task.label

def Happening.published? : Happening σ ν → Option (String × Delivery)
  | .published queue delivery => some (queue, delivery)
  | _ => none

def Course.published (setup : Setup σ) (course : Course σ ν) : List (String × Delivery) :=
  course.gather Happening.published? setup

def Loop.Attached (broker : Broker) (loop : Loop) : Prop :=
  ∀ stream, loop.phase.stream? = some stream →
    ∃ index, broker.source? stream = some index ∧ broker.name? index = some loop.queue

theorem Loop.Attached.kept {broker later : Broker} {loop next : Loop}
    (attached : loop.Attached broker) (grows : broker.Grows later)
    (sameQueue : next.queue = loop.queue)
    (sameStream : ∀ stream, next.phase.stream? = some stream →
      loop.phase.stream? = some stream) : next.Attached later := by
  intro stream streams
  obtain ⟨index, source, named⟩ := attached stream (sameStream stream streams)
  rw [sameQueue]
  exact ⟨index, grows.sources _ _ source, grows.names _ _ named⟩

theorem LoopMove.change {heed : Bool} {queue : String} {phase next : LoopPhase}
    {pulled : Option Delivery} {broker : Broker}
    (move : LoopMove setup system heed queue phase pulled next broker) :
    broker = system.broker ∨ Broker.Change system.broker broker := by
  cases move with
  | opened _ consumed | openFailed _ consumed =>
      have change : Broker.Change system.broker (system.broker.consume queue _ .none).2 :=
        .consume queue (setup.config.consumerTag queue) .none
      rw [consumed] at change
      exact .inr change
  | leaveStream _ => exact .inr (.dropStream _)
  | pull polled | pending polled | ended polled =>
      have same := congrArg (fun answer => Broker.Change system.broker answer.2) polled
      exact .inr (same.mp (.poll _))
  | _ => exact .inl rfl

theorem LoopMove.labelled {heed : Bool} {queue : String} {phase next : LoopPhase}
    {pulled : Option Delivery} {broker : Broker}
    (attached : Loop.Attached system.broker ⟨queue, phase⟩)
    (move : LoopMove setup system heed queue phase pulled next broker) :
    system.broker.labelled.Perm (pulled.toList.map (queue, ·) ++ broker.labelled) := by
  have same {broker : Broker} (labelled : broker.labelled = system.broker.labelled) :
      system.broker.labelled.Perm ((none : Option Delivery).toList.map (queue, ·) ++
        broker.labelled) := by
    rw [labelled]
    exact .refl _
  cases move with
  | opened _ consumed | openFailed _ consumed =>
      have labelled := system.broker.labelled_consume queue (setup.config.consumerTag queue) .none
      rw [consumed] at labelled
      exact same labelled
  | leaveStream _ => exact same (system.broker.labelled_dropStream _)
  | pull polled | pending polled | ended polled =>
      obtain ⟨index, source, named⟩ := attached _ rfl
      have labelled := Broker.labelled_poll source named
      rwa [polled] at labelled
  | _ => exact same rfl

theorem carried_task {index : Nat} {deed : Option (Deed σ ν)} {next : TaskPhase σ ν}
    (moved : after.tasks = before.tasks.modify index fun task => { task with phase := next })
    (frame : TaskFrame before after deed) : after.carried = before.carried := by
  have tasks : after.tasks.map Task.label = before.tasks.map Task.label := by
    rw [moved]
    exact map_modify before.tasks index fun _ => rfl
  have loops : after.loops.flatMap Loop.labels = before.loops.flatMap Loop.labels := by
    rcases frame.loops with same | ⟨granted, grants⟩
    · rw [same]
    · rw [grants]
      refine flatMap_modify before.loops granted fun loop => ?_
      rw [Loop.labels, loop.grant_held, loop.grant_queue, Loop.labels]
  rw [State.carried, State.carried, tasks, loops]

theorem carried_loop {puller : Nat} {heed : Bool} {loop : Loop} {pulled : Option Delivery}
    {next : LoopPhase}
    (found : before.loops[puller]? = some loop)
    (move : LoopMove setup before heed loop.queue loop.phase pulled next after.broker)
    (moved : after.loops = before.loops.modify puller fun loop => { loop with phase := next })
    (born : after.tasks = before.tasks ++ loop.phase.born loop.queue puller) :
    (pulled.toList.map (loop.queue, ·) ++ before.carried).Perm after.carried := by
  have custody := congrArg (List.map (loop.queue, ·)) (move.custody puller)
  have given : (loop.phase.born loop.queue puller : List (Task σ ν)).map Task.label =
      ((loop.phase.born loop.queue puller : List (Task σ ν)).map Task.delivery).map
        (loop.queue, ·) := by
    cases loop.phase <;> rfl
  have held := flatMap_modify_perm (fun loop => { loop with phase := next }) Loop.labels found
  rw [← moved] at held
  refine List.perm_iff_count.mpr ?_
  intro label
  have same := congrArg (List.count label) custody
  have sameLoops := held.count_eq label
  simp only [State.carried, Loop.labels, born, given, List.map_append, List.count_append]
    at same sameLoops ⊢
  omega

theorem carried_outside (frame : OutsideFrame before after event) :
    after.carried = before.carried := by
  have loops : after.loops.flatMap Loop.labels = before.loops.flatMap Loop.labels := by
    rcases frame.loops with same | ⟨queue, _, added⟩
    · rw [same]
    · rw [added, List.flatMap_append]
      exact List.append_nil _
  rw [State.carried, State.carried, frame.tasks, loops]

theorem OutsideFrame.labelled (setup : Setup σ) (sound : before.broker.Sound)
    (notTask : ∀ index, event ≠ .task index) (notLoop : ∀ index heed, event ≠ .loop index heed)
    (frame : OutsideFrame before after event) :
    after.broker.labelled.Perm
      (((before.happening? setup event).bind Happening.published?).toList ++
        before.broker.labelled) ∧
      (after.broker = before.broker ∨ Broker.Change before.broker after.broker) := by
  rw [frame.broker]
  cases event with
  | task index => exact absurd rfl (notTask index)
  | loop index heed => exact absurd rfl (notLoop index heed)
  | publish queue messageId body =>
      exact ⟨Broker.labelled_publish sound queue messageId body,
        .inr (.publish queue messageId body)⟩
  | publishTask ids queue param =>
      exact ⟨Broker.labelled_publishTask sound ids queue param, .inr (.publishTask ids queue param)⟩
  | closeQueue queue =>
      exact ⟨.of_eq (before.broker.labelled_closeQueue queue), .inr (.closeQueue queue)⟩
  | failConsumes count => exact ⟨.refl _, .inr (.failConsumes count)⟩
  | failTerminations count => exact ⟨.refl _, .inr (.failTerminations count)⟩
  | _ => exact ⟨.refl _, .inl rfl⟩

theorem Deed.change (broker : Broker) (deed : Option (Deed σ ν)) :
    (Deed.broker broker deed).labelled = broker.labelled ∧
      (Deed.broker broker deed = broker ∨ Broker.Change broker (Deed.broker broker deed)) := by
  cases deed with
  | none => exact ⟨rfl, .inl rfl⟩
  | some deed =>
      cases deed with
      | called call =>
          exact ⟨broker.labelled_terminate call.tag call.termination, .inr (.terminate _ _)⟩
      | _ => exact ⟨rfl, .inl rfl⟩

theorem sound_grows {broker later : Broker} (sound : broker.Sound)
    (change : later = broker ∨ Broker.Change broker later) :
    later.Sound ∧ broker.Grows later := by
  rcases change with rfl | change
  · exact ⟨sound, .refl _⟩
  · exact ⟨change.sound sound, change.grows sound⟩

/-- Every delivery is in one place, under the name of its queue. -/
structure Labelled (setup : Setup σ) (first : State σ ν) (course : Course σ ν)
    (system : State σ ν) : Prop where
  sound : system.broker.Sound
  attached : ∀ loop ∈ system.loops, loop.Attached system.broker
  kept : (first.broker.labelled ++ course.published setup).Perm
    (system.broker.labelled ++ system.carried)

namespace Labelled

theorem unpublished (labelled : Labelled setup first course before)
    (nothing : (before.happening? setup event).bind Happening.published? = none) :
    (first.broker.labelled ++ (course ++ [(before, event)]).published setup).Perm
      (before.broker.labelled ++ before.carried) := by
  rw [Course.published, Course.gather_append_none nothing]
  exact labelled.kept

theorem step_task {doer : Nat} {next : TaskPhase σ ν}
    (labelled : Labelled setup first course before)
    (moved : after.tasks = before.tasks.modify doer fun task => { task with phase := next })
    (frame : TaskFrame before after (before.deed? setup doer)) :
    Labelled setup first (course ++ [(before, .task doer)]) after := by
  have change := Deed.change before.broker (before.deed? setup doer)
  rw [← frame.broker] at change
  obtain ⟨sound, grows⟩ := sound_grows labelled.sound change.2
  refine ⟨sound, ?attached, ?kept⟩
  case attached =>
    intro loop taken
    rcases frame.mem_loops taken with old | ⟨known, old, rfl⟩
    · exact (labelled.attached loop old).kept grows rfl fun _ streams => streams
    · exact (labelled.attached known old).kept grows known.grant_queue fun _ streams =>
        known.grant_stream.symm.trans streams
  case kept =>
    rw [change.1, carried_task moved frame]
    apply labelled.unpublished
    cases done : before.deed? setup doer <;>
      simp [State.happening?, done, Happening.published?]

theorem step_loop {puller : Nat} {heed : Bool} {loop : Loop} {pulled : Option Delivery}
    {next : LoopPhase} (labelled : Labelled setup first course before)
    (found : before.loops[puller]? = some loop)
    (pull : before.pull? puller heed = pulled.map (loop.queue, ·))
    (move : LoopMove setup before heed loop.queue loop.phase pulled next after.broker)
    (moved : after.loops = before.loops.modify puller fun loop => { loop with phase := next })
    (born : after.tasks = before.tasks ++ loop.phase.born loop.queue puller) :
    Labelled setup first (course ++ [(before, .loop puller heed)]) after := by
  have own := labelled.attached loop (List.mem_of_getElem? found)
  obtain ⟨sound, grows⟩ := sound_grows labelled.sound move.change
  refine ⟨sound, ?attached, ?kept⟩
  case attached =>
    intro other taken
    rw [moved] at taken
    rcases mem_modify taken with old | ⟨known, foundKnown, rfl⟩
    · exact (labelled.attached other old).kept grows rfl fun _ streams => streams
    · obtain rfl := Option.some.inj (found.symm.trans foundKnown)
      intro stream streams
      rcases move.stream streams with old | consumed
      · exact (own.kept grows rfl fun _ streams => streams) stream old
      · obtain ⟨index, source, current⟩ := Broker.consume_ok consumed
        exact ⟨index, source, sound _ _ current⟩
  case kept =>
    have unpublished : (before.happening? setup (.loop puller heed)).bind
        Happening.published? = none := by
      cases pulled <;> simp [State.happening?, pull, Happening.published?]
    calc (first.broker.labelled ++
            (course ++ [(before, Event.loop puller heed)]).published setup).Perm
          (before.broker.labelled ++ before.carried) := labelled.unpublished unpublished
      _ |>.Perm ((pulled.toList.map (loop.queue, ·) ++ after.broker.labelled) ++
          before.carried) := (move.labelled own).append_right _
      _ |>.Perm (after.broker.labelled ++
          (pulled.toList.map (loop.queue, ·) ++ before.carried)) := by
          rw [← List.append_assoc]
          exact List.perm_append_comm.append_right _
      _ |>.Perm (after.broker.labelled ++ after.carried) :=
          (carried_loop found move moved born).append_left _

theorem step_outside (labelled : Labelled setup first course before)
    (notTask : ∀ index, event ≠ .task index) (notLoop : ∀ index heed, event ≠ .loop index heed)
    (frame : OutsideFrame before after event) :
    Labelled setup first (course ++ [(before, event)]) after := by
  obtain ⟨published, change⟩ := frame.labelled setup labelled.sound notTask notLoop
  obtain ⟨sound, grows⟩ := sound_grows labelled.sound change
  refine ⟨sound, ?attached, ?kept⟩
  case attached =>
    intro loop taken
    rcases frame.mem_loops taken with old | ⟨name, _, rfl⟩
    · exact (labelled.attached loop old).kept grows rfl fun _ streams => streams
    · intro stream streams
      simp [LoopPhase.stream?] at streams
  case kept =>
    rw [carried_outside frame, Course.published, Course.gather_append, ← Course.published,
      ← List.append_assoc]
    calc (first.broker.labelled ++ course.published setup ++ _).Perm
          (before.broker.labelled ++ before.carried ++ _) := labelled.kept.append_right _
      _ |>.Perm (_ ++ (before.broker.labelled ++ before.carried)) := List.perm_append_comm
      _ |>.Perm (after.broker.labelled ++ before.carried) := by
          rw [← List.append_assoc]
          exact published.symm.append_right _

end Labelled

theorem Run.labelled (sound : first.broker.Sound) (noTasks : first.tasks = [])
    (noLoops : first.loops = []) (run : Run setup first course system) :
    Labelled setup first course system := by
  induction run with
  | start =>
      refine ⟨sound, by simp [noLoops], ?_⟩
      rw [State.carried, noTasks, noLoops]
      exact .refl _
  | step run stepped ih =>
      cases State.step_moved stepped with
      | task _ _ moved frame => exact ih.step_task moved frame
      | loop found pull move moved born _ => exact ih.step_loop found pull move moved born
      | outside notTask notLoop frame => exact ih.step_outside notTask notLoop frame

def labelTag (label : String × Delivery) : UInt64 := label.2.tag

theorem State.step_published (stepped : before.step setup event = some after)
    {label : String × Delivery}
    (published : (before.happening? setup event).bind Happening.published? = some label) :
    labelTag label = (before.broker.published + 1).toUInt64 ∧
      after.broker.published = before.broker.published + 1 := by
  cases event with
  | publish queue messageId body =>
      simp only [State.happening?, Option.bind_some, Happening.published?,
        Option.some.injEq] at published
      simp only [State.step, Option.some.injEq] at stepped
      subst label after
      exact ⟨rfl, Broker.published_incarnate _ queue⟩
  | publishTask ids queue param =>
      simp only [State.happening?, Option.bind_some, Happening.published?,
        Option.some.injEq] at published
      simp only [State.step, Option.some.injEq] at stepped
      subst label after
      exact ⟨rfl, Broker.published_incarnate _ queue⟩
  | task index =>
      cases done : before.deed? setup index <;>
        simp [State.happening?, done, Happening.published?] at published
  | loop index heed =>
      cases pulled : before.pull? index heed <;>
        simp [State.happening?, pulled, Happening.published?] at published
  | _ => simp [State.happening?] at published

theorem Run.tagged {registry : Registry (Handler σ ν)} {broker : Broker} {shared : σ}
    (made : broker.Made) (few : system.broker.published < UInt64.size)
    (run : Run setup (State.start setup registry broker shared) course system) :
    Broker.Issued system.broker.published
      ((broker.labelled ++ course.published setup).map labelTag) := by
  induction run with
  | start =>
      have issued := made.issued few
      rw [Broker.stock_eq_labelled, List.map_map] at issued
      have nothing : Course.published setup ([] : Course σ ν) = [] := rfl
      rw [nothing, List.append_nil]
      exact issued
  | step run stepped ih =>
      rename_i course before after event
      obtain ⟨_, _, flow, _⟩ := State.step_flow stepped
      have issued := ih (Nat.lt_of_le_of_lt flow.published.1 few)
      rw [Course.published, Course.gather_append, ← Course.published]
      cases published : (before.happening? setup event).bind Happening.published? with
      | none =>
          rw [Option.toList_none, List.append_nil]
          exact issued.kept [] (.refl _) flow.published.1
      | some label =>
          obtain ⟨tag, next⟩ := State.step_published stepped published
          rw [next] at few ⊢
          refine (issued.add few).kept [] ?_ (Nat.le_refl _)
          rw [← tag, List.nil_append, Option.toList_some, ← List.append_assoc]
          exact ((List.perm_append_singleton label _).map labelTag).symm

end TaskQueue.Consumer
