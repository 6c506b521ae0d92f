import TaskQueue.Consumer.Session
import TaskQueue.Proofs.Consumer.Run
import TaskQueue.Proofs.Schedule

/-!
A session is a run. Whatever is requested of a consumer, and however long everybody is then left to
go on, its system is one that a run leads to; so what holds of all runs holds of what is shown.
-/

namespace TaskQueue.Consumer

variable {σ ν : Type} {setup : Setup σ} {first : State σ ν}

theorem machine_obeys (setup : Setup σ) :
    (machine setup : Machine (State σ ν) Actor).Obeys
      fun system event => system.step setup event where
  acts {system after actor} acted := by
    cases actor with
    | caller index => exact ⟨.caller index, acted⟩
    | loop index => exact ⟨.loop index system.cancelled, acted⟩
    | task index => exact ⟨.task index, acted⟩
  ticks system moment := by
    cases ticked : system.tick moment with
    | none => exact .inl (by simp [machine, ticked])
    | some after => exact .inr ⟨.tick moment, by simp [machine, State.step, ticked]⟩

namespace Session

/-- The sessions that can come about from a system by what is done with a session. -/
inductive Reached (setup : Setup σ) (first : State σ ν) : Session σ ν → Prop
  | start : Reached setup first (ofSystem setup first)
  | request {α : Type} {session : Session σ ν} {change : State σ ν → α × State σ ν}
      (event : Event σ ν) : Reached setup first session →
      session.system.step setup event = some (change session.system).2 →
      Reached setup first (session.request change).2
  | settle {session : Session σ ν} : Reached setup first session →
      Reached setup first session.settle
  | passTime {session : Session σ ν} (milliseconds : Nat) : Reached setup first session →
      Reached setup first (session.passTime milliseconds)
  | finish {session : Session σ ν} : Reached setup first session →
      Reached setup first session.finish
  | snapshot {session : Session σ ν} : Reached setup first session →
      Reached setup first session.snapshot.2

theorem Reached.setup_eq {session : Session σ ν} (reached : Reached setup first session) :
    session.setup = setup := by
  induction reached with
  | start => rfl
  | _ => assumption

theorem Reached.exists_run {session : Session σ ν} (reached : Reached setup first session) :
    ∃ course, Run setup first course session.system := by
  have leads : Leads (fun system event => system.step setup event) first session.system := by
    induction reached with
    | start => exact .refl first
    | request event _ stepped ih => exact ih.trans (.single stepped)
    | settle reached ih =>
        obtain rfl := reached.setup_eq
        exact ih.trans (Schedule.run_leads (machine_obeys _) _)
    | passTime _ reached ih =>
        obtain rfl := reached.setup_eq
        exact ih.trans (Schedule.passTime_leads (machine_obeys _) _ _)
    | @finish session reached ih =>
        obtain rfl := reached.setup_eq
        have cancelled : session.system.step session.setup .cancelRoot =
            some session.system.cancelRoot := rfl
        refine (ih.trans (.single cancelled)).trans ?_
        exact Schedule.runUntil_leads (machine_obeys _) allReturned Schedule.patience
          (session.request fun system => ((), system.cancelRoot)).2.schedule
    | snapshot _ ih => exact ih
  exact leads

end Session

end TaskQueue.Consumer
