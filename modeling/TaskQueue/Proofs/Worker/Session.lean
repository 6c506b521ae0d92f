import TaskQueue.Proofs.Schedule
import TaskQueue.Proofs.Worker.Isolation
import TaskQueue.Worker.Session

/-!
A session with a pool of workers is a run of the pool, as long as nobody else turns to the recovery.
-/

namespace TaskQueue.Worker

variable {σ ν : Type} {recovery : Recovery σ} {shared : σ}

theorem machine_obeys (recovery : Recovery σ) :
    (machine recovery : Machine (Workers σ ν) Actor).Obeys fun pool event =>
      pool.step recovery event where
  acts {pool after actor} acted := by
    cases actor with
    | worker index => exact ⟨.worker index, acted⟩
    | waiter index => exact ⟨.waiter index, acted⟩
  ticks pool moment := by
    cases ticked : pool.tick moment with
    | none => exact .inl (by simp [machine, ticked])
    | some after => exact .inr ⟨.tick moment, by simp [machine, Workers.step, ticked]⟩

namespace Session

/-- The sessions that can come about from an empty pool by what is done with a session, apart from
turning to the recovery. -/
inductive Reached (recovery : Recovery σ) (shared : σ) : Session σ ν → Prop
  | start : Reached recovery shared (ofRecovery recovery shared)
  | request {session : Session σ ν} {change : Workers σ ν → Workers σ ν} (event : Event ν) :
      Reached recovery shared session →
      session.pool.step recovery event = some (change session.pool) →
      Reached recovery shared (session.request change)
  | settle {session : Session σ ν} : Reached recovery shared session →
      Reached recovery shared session.settle
  | passTime {session : Session σ ν} (milliseconds : Nat) : Reached recovery shared session →
      Reached recovery shared (session.passTime milliseconds)
  | drain {session : Session σ ν} : Reached recovery shared session →
      Reached recovery shared session.drain
  | snapshot {session : Session σ ν} : Reached recovery shared session →
      Reached recovery shared session.snapshot.2

theorem Reached.recovery_eq {session : Session σ ν} (reached : Reached recovery shared session) :
    session.recovery = recovery := by
  induction reached with
  | start => rfl
  | _ => assumption

theorem Reached.exists_run {session : Session σ ν} (reached : Reached recovery shared session) :
    ∃ course, Workers.Run recovery shared course session.pool := by
  have leads : Leads (fun pool event => pool.step recovery event) (.start shared) session.pool := by
    induction reached with
    | start => exact .refl _
    | request event _ stepped ih => exact ih.trans (.single stepped)
    | settle reached ih =>
        obtain rfl := reached.recovery_eq
        exact ih.trans (Schedule.run_leads (machine_obeys _) _)
    | passTime _ reached ih =>
        obtain rfl := reached.recovery_eq
        exact ih.trans (Schedule.passTime_leads (machine_obeys _) _ _)
    | @drain session reached ih =>
        obtain rfl := reached.recovery_eq
        have waits : session.pool.step session.recovery .wait = some session.pool.wait := rfl
        refine (ih.trans (.single waits)).trans ?_
        exact Schedule.runUntil_leads (machine_obeys _) _ Schedule.patience
          (session.request Workers.wait).schedule
    | snapshot _ ih => exact ih
  exact leads

end Session

end TaskQueue.Worker
