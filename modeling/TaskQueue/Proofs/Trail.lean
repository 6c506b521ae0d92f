/-!
Runs of a machine that takes one step after another. A trail keeps the steps, each with the state
before it, so that what happened on the way can be read off them.
-/

namespace TaskQueue

variable {σ ε : Type} {step : σ → ε → Option σ} {first before after last : σ}
  {course more earlier later : List (σ × ε)} {event : ε} {events : List ε}

inductive Trail (step : σ → ε → Option σ) (first : σ) : List (σ × ε) → σ → Prop
  | start : Trail step first [] first
  | step {course : List (σ × ε)} {before after : σ} {event : ε} :
      Trail step first course before → step before event = some after →
      Trail step first (course ++ [(before, event)]) after

def follow (step : σ → ε → Option σ) (state : σ) : List ε → Option (List (σ × ε) × σ)
  | [] => some ([], state)
  | event :: rest =>
      match step state event with
      | none => none
      | some next => (follow step next rest).map fun led => ((state, event) :: led.1, led.2)

theorem follow_events (followed : follow step before events = some (course, after)) :
    course.map Prod.snd = events := by
  induction events generalizing before course with
  | nil =>
      obtain ⟨rfl, rfl⟩ := Prod.mk.inj (Option.some.inj followed)
      rfl
  | cons event rest ih =>
      simp only [follow] at followed
      cases stepped : step before event with
      | none => simp [stepped] at followed
      | some middle =>
          simp only [stepped, Option.map_eq_some_iff] at followed
          obtain ⟨⟨others, last⟩, led, equal⟩ := followed
          obtain ⟨rfl, rfl⟩ := Prod.mk.inj equal
          exact congrArg (event :: ·) (ih led)

namespace Trail

theorem follow (trail : Trail step first course before)
    (followed : follow step before events = some (more, after)) :
    Trail step first (course ++ more) after := by
  induction events generalizing course before more with
  | nil =>
      simp only [TaskQueue.follow, Option.some.injEq, Prod.mk.injEq] at followed
      obtain ⟨rfl, rfl⟩ := followed
      rwa [List.append_nil]
  | cons event rest ih =>
      simp only [TaskQueue.follow] at followed
      cases stepped : step before event with
      | none => simp [stepped] at followed
      | some middle =>
          simp only [stepped, Option.map_eq_some_iff] at followed
          obtain ⟨⟨others, last⟩, led, equal⟩ := followed
          obtain ⟨rfl, rfl⟩ := Prod.mk.inj equal
          have continued := ih (trail.step stepped) led
          rwa [List.append_assoc] at continued

theorem append (trail : Trail step first course before) (rest : Trail step before more after) :
    Trail step first (course ++ more) after := by
  induction rest with
  | start => rwa [List.append_nil]
  | step _ stepped ih =>
      rw [← List.append_assoc]
      exact ih.step stepped

theorem parts (trail : Trail step first (earlier ++ later) last) :
    ∃ middle, Trail step first earlier middle ∧ Trail step middle later last := by
  generalize whole : earlier ++ later = course at trail
  induction trail generalizing later with
  | start =>
      obtain ⟨rfl, rfl⟩ := List.append_eq_nil_iff.mp whole
      exact ⟨first, .start, .start⟩
  | @step course before after event trail stepped ih =>
      rcases List.eq_nil_or_concat later with rfl | ⟨most, final, rfl⟩
      · rw [List.append_nil] at whole
        subst whole
        exact ⟨after, trail.step stepped, .start⟩
      · rw [List.concat_eq_append, ← List.append_assoc] at whole
        obtain ⟨same, last⟩ := List.append_inj' whole rfl
        obtain rfl := (List.cons.inj last).1
        obtain ⟨middle, before, rest⟩ := ih same
        rw [List.concat_eq_append]
        exact ⟨middle, before, rest.step stepped⟩

theorem head (trail : Trail step first ((before, event) :: later) last) :
    before = first ∧ ∃ after, step before event = some after ∧ Trail step after later last := by
  have parts : Trail step first ([(before, event)] ++ later) last := trail
  obtain ⟨after, one, rest⟩ := parts.parts
  generalize single : [(before, event)] = course at one
  cases one with
  | start => simp at single
  | @step earlier middle _ lastEvent trail stepped =>
      have whole : [] ++ [(before, event)] = earlier ++ [(middle, lastEvent)] := single
      obtain ⟨nothing, same⟩ := List.append_inj' whole rfl
      obtain ⟨rfl, rfl⟩ := Prod.mk.inj (List.cons.inj same).1
      refine ⟨?_, after, stepped, rest⟩
      cases trail with
      | start => rfl
      | step _ _ => simp at nothing

theorem step_of_mem (trail : Trail step first course last) (taken : (before, event) ∈ course) :
    ∃ after, step before event = some after := by
  obtain ⟨earlier, later, rfl⟩ := List.append_of_mem taken
  obtain ⟨_, _, rest⟩ := trail.parts
  obtain ⟨_, after, stepped, _⟩ := rest.head
  exact ⟨after, stepped⟩

theorem keeps {fact : σ → Prop} (trail : Trail step first course after) (begins : fact first)
    (kept : ∀ {before after event}, step before event = some after → fact before → fact after) :
    fact after := by
  induction trail with
  | start => exact begins
  | step _ stepped ih => exact kept stepped ih

/-- What holds at first and is kept by every step, given the events, holds all along. -/
theorem throughout (fact : σ → Prop) {allowed : ε → Prop} (begins : fact first)
    (kept : ∀ {before after event}, allowed event → fact before → step before event = some after →
      fact after)
    (trail : Trail step first course last) (events : ∀ moment ∈ course, allowed moment.2) :
    fact last ∧ ∀ moment ∈ course, fact moment.1 := by
  induction trail with
  | start => exact ⟨begins, by simp⟩
  | step trail stepped ih =>
      rename_i course before after event
      obtain ⟨now, earlier⟩ := ih fun moment taken => events moment (List.mem_append_left _ taken)
      have allowedLast : allowed event :=
        events (before, event) (List.mem_append_right _ List.mem_cons_self)
      refine ⟨kept allowedLast now stepped, ?_⟩
      intro moment taken
      rcases List.mem_append.mp taken with old | last
      · exact earlier moment old
      · rw [List.mem_singleton.mp last]
        exact now

end Trail

end TaskQueue
