import TaskQueue.Broker.Watch
import TaskQueue.Proofs.Lists
import TaskQueue.Proofs.Trail

/-!
Nobody who waits for the log misses an entry. Who has found the log too short and has had no notice
since is right about the log, or the notice of an entry is still to come: the listening began before
the look, so that whatever was added after the look gives notice to those who looked.
-/

namespace TaskQueue.Broker

variable {watch before after : Watch} {log : List (UInt64 × Termination)}
  {course : List (Watch × Watch.Event)}

def WatcherPhase.isContent : WatcherPhase → Bool
  | .looked _ true | .returned => true
  | _ => false

/-- The log was found too short, and there has been no notice since the listening began. -/
def WatcherPhase.isUnaware : WatcherPhase → Bool
  | .looked false false | .standingBy false => true
  | _ => false

namespace Watch

/-- There is an entry in the log of which no notice has been given yet. -/
def Owing (watch : Watch) : Prop := ∃ writer ∈ watch.writers, writer.phase = .added

structure Knows (watch : Watch) (watcher : Watcher) : Prop where
  content : watcher.phase.isContent = true → watcher.length ≤ watch.log.length
  unaware : watcher.phase.isUnaware = true → watch.log.length < watcher.length ∨ watch.Owing

theorem Knows.kept {watcher : Watcher} (knows : before.Knows watcher)
    (sameLog : after.log = before.log) (owing : before.Owing → after.Owing) :
    after.Knows watcher := by
  constructor
  · intro content
    rw [sameLog]
    exact knows.content content
  · intro unaware
    rw [sameLog]
    exact (knows.unaware unaware).imp_right owing

theorem Knows.added {entry : UInt64 × Termination} {index : Nat} {watcher : Watcher}
    (knows : watch.Knows watcher) (found : watch.writers[index]? = some ⟨entry, .adding⟩) :
    Knows ({ watch with log := watch.log ++ [entry] }.setWriter index .added) watcher := by
  constructor
  · intro content
    have enough := knows.content content
    simp only [setWriter, List.length_append]
    omega
  · intro _
    refine .inr ⟨⟨entry, .added⟩, List.mem_iff_getElem?.mpr ⟨index, ?_⟩, rfl⟩
    simp [setWriter, found]

theorem notice_aware (phase : WatcherPhase) : phase.notice.isUnaware = false := by
  cases phase <;> rfl

theorem notice_content (phase : WatcherPhase) : phase.notice.isContent = phase.isContent := by
  cases phase with
  | looked noticed enough => cases enough <;> rfl
  | _ => rfl

theorem Knows.notified {index : Nat} {watcher : Watcher} (knows : watch.Knows watcher) :
    (watch.notify.setWriter index .written).Knows
      { watcher with phase := watcher.phase.notice } := by
  constructor
  · intro content
    rw [notice_content] at content
    exact knows.content content
  · intro unaware
    rw [notice_aware] at unaware
    simp at unaware

theorem knows_stepWriter {index : Nat} (stepped : before.stepWriter index = some after)
    (known : ∀ watcher ∈ before.watchers, before.Knows watcher) :
    ∀ watcher ∈ after.watchers, after.Knows watcher := by
  unfold stepWriter at stepped
  cases found : before.writers[index]? with
  | none => simp [found] at stepped
  | some writer =>
      obtain ⟨entry, phase⟩ := writer
      cases phase with
      | adding =>
          simp only [found, Option.some.injEq] at stepped
          subst after
          intro watcher taken
          exact (known watcher taken).added found
      | added =>
          simp only [found, Option.some.injEq] at stepped
          subst after
          intro watcher taken
          obtain ⟨old, oldTaken, rfl⟩ := List.mem_map.mp taken
          exact (known old oldTaken).notified
      | written => simp [found] at stepped

theorem knows_setWatcher {index : Nat} {watcher : Watcher} {phase : WatcherPhase}
    (found : watch.watchers[index]? = some watcher)
    (known : ∀ watcher ∈ watch.watchers, watch.Knows watcher)
    (knows : watch.Knows { watcher with phase }) :
    ∀ other ∈ (watch.setWatcher index phase).watchers,
      (watch.setWatcher index phase).Knows other := by
  intro other taken
  suffices watch.Knows other from this.kept rfl id
  rcases mem_modify taken with old | ⟨before, foundBefore, rfl⟩
  · exact known other old
  · obtain rfl := Option.some.inj (found.symm.trans foundBefore)
    exact knows

theorem knows_stepWatcher {index : Nat} (stepped : before.stepWatcher index = some after)
    (known : ∀ watcher ∈ before.watchers, before.Knows watcher) :
    ∀ watcher ∈ after.watchers, after.Knows watcher := by
  unfold stepWatcher at stepped
  cases found : before.watchers[index]? with
  | none => simp [found] at stepped
  | some watcher =>
      obtain ⟨length, phase⟩ := watcher
      have knows := known _ (List.mem_of_getElem? found)
      cases phase with
      | starting =>
          simp only [found, Option.some.injEq] at stepped
          subst after
          exact knows_setWatcher found known ⟨nofun, nofun⟩
      | listening noticed =>
          simp only [found, Option.some.injEq] at stepped
          subst after
          apply knows_setWatcher found known
          by_cases enough : length ≤ before.log.length
          · simp only [enough, decide_true]
            exact ⟨fun _ => enough, by cases noticed <;> exact nofun⟩
          · simp only [enough, decide_false]
            exact ⟨nofun, fun _ => .inl (Nat.lt_of_not_le enough)⟩
      | looked noticed enough =>
          simp only [found, Option.some.injEq] at stepped
          subst after
          apply knows_setWatcher found known
          cases enough with
          | true => exact ⟨fun _ => knows.content rfl, nofun⟩
          | false =>
              cases noticed with
              | true => exact ⟨nofun, nofun⟩
              | false => exact ⟨nofun, fun _ => knows.unaware rfl⟩
      | standingBy noticed =>
          cases noticed with
          | true =>
              simp only [found, if_true, Option.some.injEq] at stepped
              subst after
              exact knows_setWatcher found known ⟨nofun, nofun⟩
          | false => simp [found] at stepped
      | returned => simp [found] at stepped

theorem knows_step {event : Event} (stepped : before.step event = some after)
    (known : ∀ watcher ∈ before.watchers, before.Knows watcher) :
    ∀ watcher ∈ after.watchers, after.Knows watcher := by
  cases event with
  | write entry =>
      obtain rfl := Option.some.inj stepped
      intro watcher taken
      refine (known watcher taken).kept rfl ?_
      rintro ⟨writer, old, added⟩
      exact ⟨writer, List.mem_append_left _ old, added⟩
  | waitFor length =>
      obtain rfl := Option.some.inj stepped
      intro watcher taken
      rcases List.mem_append.mp taken with old | new
      · exact (known watcher old).kept rfl id
      · obtain rfl := List.mem_singleton.mp new
        exact ⟨nofun, nofun⟩
  | writer index => exact knows_stepWriter stepped known
  | watcher index => exact knows_stepWatcher stepped known

theorem written_of_stuck (stuck : ∀ index, watch.stepWriter index = none) {writer : Writer}
    (taken : writer ∈ watch.writers) : writer.phase = .written := by
  obtain ⟨index, found⟩ := List.mem_iff_getElem?.mp taken
  have still := stuck index
  obtain ⟨entry, phase⟩ := writer
  cases phase with
  | written => rfl
  | _ => simp [stepWriter, found] at still

theorem parked_of_stuck (stuck : ∀ index, watch.stepWatcher index = none) {watcher : Watcher}
    (taken : watcher ∈ watch.watchers) :
    watcher.phase = .standingBy false ∨ watcher.phase = .returned := by
  obtain ⟨index, found⟩ := List.mem_iff_getElem?.mp taken
  have still := stuck index
  obtain ⟨length, phase⟩ := watcher
  cases phase with
  | standingBy noticed =>
      cases noticed with
      | true => simp [stepWatcher, found] at still
      | false => exact .inl rfl
  | returned => exact .inr rfl
  | _ => simp [stepWatcher, found] at still

/-- Who waits for the log returns only when it is long enough. As long as every entry has been given
notice of, nobody stands by without a notice for a length that the log has; so when nobody can go
on, all whose length the log has have returned. -/
theorem heard (trail : Trail step (ofLog log) course watch) :
    (∀ watcher ∈ watch.watchers, watcher.phase = .returned →
        watcher.length ≤ watch.log.length) ∧
      ((∀ writer ∈ watch.writers, writer.phase ≠ .added) → ∀ watcher ∈ watch.watchers,
        watcher.length ≤ watch.log.length → watcher.phase ≠ .standingBy false) ∧
      ((∀ index, watch.stepWriter index = none) → (∀ index, watch.stepWatcher index = none) →
        ∀ watcher ∈ watch.watchers, watcher.length ≤ watch.log.length →
          watcher.phase = .returned) := by
  have known : ∀ watcher ∈ watch.watchers, watch.Knows watcher :=
    trail.keeps nofun fun stepped known => knows_step stepped known
  have noticed (given : ∀ writer ∈ watch.writers, writer.phase ≠ .added) :
      ∀ watcher ∈ watch.watchers, watcher.length ≤ watch.log.length →
        watcher.phase ≠ .standingBy false := by
    intro watcher taken enough parked
    rcases (known watcher taken).unaware (by rw [parked]; rfl) with short | ⟨writer, owing, added⟩
    · omega
    · exact given writer owing added
  refine ⟨?_, noticed, ?_⟩
  · intro watcher taken returned
    exact (known watcher taken).content (by rw [returned]; rfl)
  · intro writersStuck watchersStuck watcher taken enough
    have given : ∀ writer ∈ watch.writers, writer.phase ≠ .added := by
      intro writer taken added
      rw [written_of_stuck writersStuck taken] at added
      simp at added
    exact (parked_of_stuck watchersStuck taken).resolve_left (noticed given watcher taken enough)

/-- Three wait: one stands by when an entry is added, one has looked and not stood by yet, and one
waits for more. -/
def windowEvents : List Event :=
  [.waitFor 1, .waitFor 1, .waitFor 2, .write (1, .ack false), .watcher 0, .watcher 0, .watcher 0,
    .watcher 1, .watcher 1, .writer 0, .watcher 1, .writer 0, .watcher 2, .watcher 2, .watcher 2,
    .watcher 1, .watcher 1, .watcher 1, .watcher 1]

theorem heard_in_window :
    ∃ course watch, Trail step (ofLog []) course watch ∧ watch.log.length = 1 ∧
      watch.watchers = [⟨1, .standingBy true⟩, ⟨1, .returned⟩, ⟨2, .standingBy false⟩] ∧
      (∀ watcher ∈ watch.watchers, watcher.phase = .returned →
        watcher.length ≤ watch.log.length) ∧
      ∀ watcher ∈ watch.watchers, watcher.length ≤ watch.log.length →
        watcher.phase ≠ .standingBy false := by
  have followed : follow step (ofLog []) windowEvents = some _ := rfl
  have trail := Trail.start.follow followed
  obtain ⟨returned, noticed, _⟩ := heard trail
  exact ⟨_, _, trail, rfl, rfl, returned, noticed (by decide)⟩

end Watch

end TaskQueue.Broker
