import TaskQueue.Proofs.Consumer.Custody

/-!
Runs on a channel that is not the consumer's own. Between two steps the broker may have become any
other and the clock may stand anywhere, so that a stream is opened or refused, brings a delivery or
ends, and an attempt to end a delivery succeeds or fails, as the channel likes and as late as it
likes. What holds of these runs holds of every channel that does not break down, and of the broker
in memory in particular.
-/

namespace TaskQueue

namespace Broker

def serving (stream : Nat) (waiting : List Delivery) (closed : Bool) : Broker :=
  { empty with
    incarnations := [⟨"", waiting, closed, []⟩]
    streams := List.replicate (stream + 1) ⟨0, true⟩ }

theorem exists_poll (stream : Nat) (polled : Polled) :
    ∃ broker : Broker, broker.hasNews stream = true ∧ (broker.poll stream).1 = polled := by
  cases polled with
  | next delivery =>
      exact ⟨serving stream [delivery] false, by simp [hasNews, serving],
        by simp [poll, serving, Incarnation.poll]⟩
  | pending =>
      exact ⟨serving stream [] false, by simp [hasNews, serving],
        by simp [poll, serving, Incarnation.poll]⟩
  | ended =>
      exact ⟨serving stream [] true, by simp [hasNews, serving],
        by simp [poll, serving, Incarnation.poll]⟩

end Broker

namespace Consumer

variable {σ ν : Type} {setup : Setup σ} {first system : State σ ν} {course : Course σ ν}

inductive Exposed (setup : Setup σ) (first : State σ ν) : Course σ ν → State σ ν → Prop
  | start : Exposed setup first [] first
  | step {course : Course σ ν} {before after : State σ ν} {event : Event σ ν} :
      Exposed setup first course before → before.step setup event = some after →
      Exposed setup first (course ++ [(before, event)]) after
  /-- The channel does as it likes, and time passes. -/
  | elsewhere {course : Course σ ν} {before : State σ ν} (broker : Broker) (now : Nat) :
      Exposed setup first course before → Exposed setup first course { before with broker, now }

theorem Run.exposed (run : Run setup first course system) : Exposed setup first course system := by
  induction run with
  | start => exact .start
  | step _ stepped ih => exact .step ih stepped

namespace Exposed

theorem brings (exposed : Exposed setup first course system) {index stream : Nat} {queue : String}
    (found : system.loops[index]? = some ⟨queue, .reading stream⟩) (delivery : Delivery) :
    ∃ longer after, Exposed setup first longer after ∧
      after.loops[index]? = some ⟨queue, .pulled stream delivery⟩ := by
  obtain ⟨broker, news, polled⟩ := Broker.exists_poll stream (.next delivery)
  have brought := exposed.elsewhere broker system.now
  have stepped : State.step { system with broker } setup (.loop index false) =
      some (State.setLoop { system with broker := (broker.poll stream).2 } index
        (.pulled stream delivery)) := by
    simp [State.step, State.stepLoop, found, news, State.pull, polled]
  exact ⟨_, _, brought.step stepped, by simp [found]⟩

/-- A fact about the tasks and their turns that new tasks have and that moves keep. -/
theorem forall_tasks (fact : Nat → List (State σ ν) → Task σ ν → Prop) (noTasks : first.tasks = [])
    (fresh : ∀ index delivery queue puller, fact index [] ⟨delivery, queue, puller, .fresh⟩)
    (moves : ∀ (earlier : Course σ ν) (before after : State σ ν) (index : Nat) (task : Task σ ν)
      next turns, Exposed setup first earlier before →
      before.tasks[index]? = some task → before.stepTask setup index = some after →
      TaskMove setup before task.delivery task.queue task.phase (before.deed? setup index) next →
      fact index turns task → fact index (turns ++ [before]) { task with phase := next })
    (exposed : Exposed setup first course system) : Tracked fact course system := by
  induction exposed with
  | start => exact Tracked.start noTasks
  | step exposed stepped ih =>
      refine ih.step fresh ?_ stepped
      intro index task next turns
      exact moves _ _ _ index task next turns exposed
  | elsewhere broker now _ ih => exact ⟨ih.known, ih.unknown⟩

theorem deeds_unknown (noTasks : first.tasks = []) (exposed : Exposed setup first course system)
    {index : Nat} (beyond : system.tasks.length ≤ index) : course.deeds setup index = [] := by
  have tracked := exposed.forall_tasks (fun _ _ _ => True) noTasks (fun _ _ _ _ => trivial)
    fun _ _ _ _ _ _ _ _ _ _ _ _ => trivial
  rw [Course.deeds_eq_turns, tracked.unknown index beyond]
  rfl

theorem split {earlier later : Course σ ν} {moment : State σ ν × Event σ ν}
    (exposed : Exposed setup first (earlier ++ moment :: later) system) :
    Exposed setup first earlier moment.1 ∧
      ∃ after, moment.1.step setup moment.2 = some after ∧ Exposed setup after later system := by
  generalize whole : earlier ++ moment :: later = course at exposed
  induction exposed generalizing later with
  | start => simp at whole
  | step exposed stepped ih =>
      rcases concat_split whole.symm with ⟨rfl, rfl, rfl⟩ | ⟨others, same, rfl⟩
      · exact ⟨exposed, _, stepped, .start⟩
      · obtain ⟨before, after, taken, rest⟩ := ih same.symm
        exact ⟨before, after, taken, rest.step stepped⟩
  | elsewhere broker now _ ih =>
      obtain ⟨before, after, taken, rest⟩ := ih whole
      exact ⟨before, after, taken, rest.elsewhere broker now⟩

theorem custody (noTasks : first.tasks = []) (noLoops : first.loops = [])
    (exposed : Exposed setup first course system) (index : Nat) :
    course.pulledBy setup index = system.handedBy index ++ system.heldBy index := by
  induction exposed with
  | start =>
      simp only [State.handedBy, State.heldBy, noTasks, noLoops]
      rfl
  | step _ stepped ih => exact custody_step stepped ih
  | elsewhere broker now _ ih => exact ih

end Exposed

end Consumer

end TaskQueue
