import TaskQueue.Proofs.Trail
import TaskQueue.Schedule

/-!
Whatever a schedule does to its state is a run of the machine. What is shown of all runs is so shown
of those in which the actors take turns as a schedule lets them.
-/

namespace TaskQueue

variable {σ ε α : Type}

def Leads (step : σ → ε → Option σ) (first last : σ) : Prop :=
  ∃ course, Trail step first course last

namespace Leads

variable {step : σ → ε → Option σ} {first middle last : σ}

theorem refl (first : σ) : Leads step first first := ⟨[], .start⟩

theorem single {event : ε} (stepped : step first event = some last) : Leads step first last :=
  ⟨_, Trail.start.step stepped⟩

theorem trans (sooner : Leads step first middle) (later : Leads step middle last) :
    Leads step first last := by
  obtain ⟨course, trail⟩ := sooner
  obtain ⟨more, rest⟩ := later
  exact ⟨course ++ more, trail.append rest⟩

end Leads

/-- Actors and the clock do only what steps do. -/
structure Machine.Obeys (machine : Machine σ α) (step : σ → ε → Option σ) : Prop where
  acts : ∀ {state after : σ} {actor : α}, machine.step state actor = some after →
    ∃ event, step state event = some after
  ticks : ∀ (state : σ) (moment : Nat), machine.tick state moment = state ∨
    ∃ event, step state event = some (machine.tick state moment)

theorem Machine.Obeys.tick_leads {machine : Machine σ α} {step : σ → ε → Option σ}
    (obeys : machine.Obeys step) (state : σ) (moment : Nat) :
    Leads step state (machine.tick state moment) := by
  rcases obeys.ticks state moment with same | ⟨event, stepped⟩
  · rw [same]
    exact .refl state
  · exact .single stepped

namespace Schedule

variable [BEq α] {machine : Machine σ α} {step : σ → ε → Option σ}

theorem turn_leads (obeys : machine.Obeys step) (actor : α) (limit left : Nat)
    (schedule : Schedule σ α) :
    Leads step schedule.state (turn machine actor limit left schedule).state := by
  induction limit generalizing left schedule with
  | zero => exact .refl _
  | succ limit ih =>
      simp only [turn]
      split
      · exact .refl _
      · split
        · split <;> exact .refl _
        · rename_i state stepped
          obtain ⟨event, acted⟩ := obeys.acts stepped
          have acted : Leads step schedule.state state := .single acted
          split
          · exact acted
          · exact acted.trans (ih _ (schedule.advance machine state))

theorem settle_leads (obeys : machine.Obeys step) (steps limit left : Nat)
    (schedule : Schedule σ α) :
    Leads step schedule.state (settle machine steps limit left schedule).state := by
  fun_induction settle machine steps limit left schedule with
  | case1 | case4 => exact .refl _
  | case2 _ _ ih | case5 _ _ _ _ _ ih => exact ih
  | case3 limit left schedule actor rest _ ih =>
      exact (turn_leads obeys actor steps allowance { schedule with ready := rest }).trans ih

theorem run_leads (obeys : machine.Obeys step) (schedule : Schedule σ α) :
    Leads step schedule.state (schedule.run machine).state :=
  settle_leads obeys patience patience interval schedule

theorem passUntil_leads (obeys : machine.Obeys step) (moment limit : Nat)
    (schedule : Schedule σ α) :
    Leads step schedule.state (passUntil machine moment limit schedule).state := by
  induction limit generalizing schedule with
  | zero => exact .refl _
  | succ limit ih =>
      have settled := run_leads obeys schedule
      simp only [passUntil]
      split
      · rename_i stop _
        have stopped := settled.trans (obeys.tick_leads _ stop)
        split
        · exact stopped.trans (run_leads obeys ((schedule.run machine).setTime machine stop))
        · exact stopped.trans (ih ((schedule.run machine).setTime machine stop))
      · exact settled

theorem passTime_leads (obeys : machine.Obeys step) (milliseconds : Nat) (schedule : Schedule σ α) :
    Leads step schedule.state (schedule.passTime machine milliseconds).state := by
  simp only [passTime]
  split
  · exact run_leads obeys schedule
  · exact passUntil_leads obeys _ patience schedule

theorem runUntil_leads (obeys : machine.Obeys step) (aim : σ → Bool) (limit : Nat)
    (schedule : Schedule σ α) :
    Leads step schedule.state (runUntil machine aim limit schedule).state := by
  induction limit generalizing schedule with
  | zero => exact .refl _
  | succ limit ih =>
      have settled := run_leads obeys schedule
      simp only [runUntil]
      split
      · exact settled
      · split
        · rename_i stop _
          exact (settled.trans (obeys.tick_leads _ stop)).trans
            (ih ((schedule.run machine).setTime machine stop))
        · exact settled

end Schedule

end TaskQueue
