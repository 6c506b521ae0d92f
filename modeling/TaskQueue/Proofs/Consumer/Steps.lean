import TaskQueue.Proofs.Consumer.LoopSteps
import TaskQueue.Proofs.Consumer.TaskSteps
import TaskQueue.Proofs.Lists

/-!
Every step is a move of a task or of a loop, or is done from outside, with all that comes of it.
-/

namespace TaskQueue.Consumer

variable {σ ν : Type} {setup : Setup σ} {system after : State σ ν} {index : Nat}

theorem CallerChange.frame_loops (change : CallerChange system after) :
    after.loops = system.loops ∨
      ∃ queue ∈ system.callers.map Caller.queue, after.loops = system.loops ++ [⟨queue, .top⟩] := by
  cases change with
  | none _ loops | subscribed _ _ loops => exact .inl loops
  | moved found move _ loops =>
      cases move with
      | call => exact .inr ⟨_, List.mem_map.mpr ⟨_, List.mem_of_getElem? found, rfl⟩, loops⟩
      | wait | pass | leave => exact .inl (loops.trans (List.append_nil _))

theorem CallerMove.queue {caller next : Caller} {born : List Loop}
    (move : CallerMove system caller born next) : next.queue = caller.queue := by
  cases move <;> rfl

theorem CallerChange.frame_callers (change : CallerChange system after) :
    system.callers.map Caller.queue ⊆ after.callers.map Caller.queue := by
  cases change with
  | none callers _ =>
      rw [callers]
      exact List.Subset.refl _
  | subscribed queue callers _ =>
      rw [callers, List.map_append]
      exact List.subset_append_left _ _
  | @moved place caller next born found move callers _ =>
      have kept : (system.callers.modify place fun _ => next).map Caller.queue =
          system.callers.map Caller.queue := by
        apply List.ext_getElem?
        intro other
        rw [List.getElem?_map, List.getElem?_map, List.getElem?_modify]
        by_cases same : place = other
        · subst other
          simp [found, move.queue]
        · simp [same]
      rw [callers, kept]
      exact List.Subset.refl _

namespace State

variable {event : Event σ ν}

theorem outside_of (broker : after.broker = event.broker system.broker)
    (registry : after.registry = event.registry system.registry)
    (tasks : after.tasks = system.tasks) (now : system.now ≤ after.now)
    (inquiries : event ≠ .inquire → (∀ place, event ≠ .load place) →
      after.inquiries = system.inquiries)
    (effect : OutsideEffect system after) :
    OutsideFrame system after event ∧ OutsideEffect system after :=
  ⟨⟨broker, registry, tasks, effect.callers.frame_loops, effect.callers.frame_callers, now,
    inquiries⟩, effect⟩

theorem stepCaller_outside {place : Nat} (stepped : system.stepCaller setup place = some after) :
    OutsideFrame system after (.caller place) ∧ OutsideEffect system after := by
  unfold stepCaller at stepped
  cases found : system.callers[place]? with
  | none => simp [found] at stepped
  | some caller =>
      obtain ⟨queue, loop, phase⟩ := caller
      have same : ∀ change : Caller → Caller, system.callers.modify place change =
          system.callers.modify place fun _ => change ⟨queue, loop, phase⟩ := by
        intro change
        apply List.ext_getElem?
        intro other
        rw [List.getElem?_modify, List.getElem?_modify]
        by_cases isPlace : place = other
        · subst other
          simp [found]
        · simp [isPlace]
      have quiet : system.loops = system.loops ++ [] := (List.append_nil _).symm
      simp only [found] at stepped
      cases phase with
      | calling =>
          obtain rfl := Option.some.inj stepped
          exact outside_of rfl rfl rfl (Nat.le_refl _) (fun _ _ => rfl)
            ⟨rfl, rfl, rfl, .moved found .call (same _) rfl, rfl, id⟩
      | started =>
          obtain rfl := Option.some.inj stepped
          by_cases idle : system.isIdle = true
          · rw [if_pos idle]
            exact outside_of rfl rfl rfl (Nat.le_refl _) (fun _ _ => rfl)
              ⟨rfl, rfl, rfl, .moved found (.pass idle) (same _) quiet, rfl, id⟩
          · rw [if_neg idle]
            exact outside_of rfl rfl rfl (Nat.le_refl _) (fun _ _ => rfl)
              ⟨rfl, rfl, rfl, .moved found (.wait (Bool.eq_false_iff.mpr idle)) (same _) quiet, rfl,
                id⟩
      | released =>
          obtain rfl := Option.some.inj stepped
          exact outside_of rfl rfl rfl (Nat.le_refl _) (fun _ _ => rfl)
            ⟨rfl, rfl, rfl, .moved found .leave (same _) quiet, rfl, id⟩
      | waiting | returned => simp at stepped

theorem load_outside {place : Nat} (stepped : system.load place = some after) :
    OutsideFrame system after (.load place) ∧ OutsideEffect system after := by
  unfold load at stepped
  split at stepped
  · simp at stepped
  · split at stepped
    · simp at stepped
    · obtain rfl := Option.some.inj stepped
      exact outside_of rfl rfl rfl (Nat.le_refl _) (fun _ other => absurd rfl (other place))
        ⟨rfl, rfl, rfl, .none rfl rfl, rfl, id⟩

theorem tick_outside {moment : Nat} (stepped : system.tick moment = some after) :
    OutsideFrame system after (.tick moment) ∧ OutsideEffect system after := by
  simp only [tick, Option.ite_none_right_eq_some, Option.some.injEq] at stepped
  obtain ⟨notBack, rfl⟩ := stepped
  exact outside_of rfl rfl rfl notBack (fun _ _ => rfl) ⟨rfl, rfl, rfl, .none rfl rfl, rfl, id⟩

theorem step_outside (notTask : ∀ index, event ≠ .task index)
    (notLoop : ∀ index heed, event ≠ .loop index heed)
    (stepped : system.step setup event = some after) :
    OutsideFrame system after event ∧ OutsideEffect system after := by
  cases event with
  | task index => exact absurd rfl (notTask index)
  | loop index heed => exact absurd rfl (notLoop index heed)
  | caller place => exact stepCaller_outside stepped
  | load place => exact load_outside stepped
  | tick moment => exact tick_outside stepped
  | subscribe queue =>
      obtain rfl := Option.some.inj stepped
      exact outside_of rfl rfl rfl (Nat.le_refl _) (fun _ _ => rfl)
        ⟨rfl, rfl, rfl, .subscribed queue rfl rfl, rfl, id⟩
  | inquire =>
      obtain rfl := Option.some.inj stepped
      exact outside_of rfl rfl rfl (Nat.le_refl _) (fun other => absurd rfl other)
        ⟨rfl, rfl, rfl, .none rfl rfl, rfl, id⟩
  | cancelRoot | shutdown =>
      obtain rfl := Option.some.inj stepped
      exact outside_of rfl rfl rfl (Nat.le_refl _) (fun _ _ => rfl)
        ⟨rfl, rfl, rfl, .none rfl rfl, rfl, fun _ => rfl⟩
  | _ =>
      obtain rfl := Option.some.inj stepped
      exact outside_of rfl rfl rfl (Nat.le_refl _) (fun _ _ => rfl)
        ⟨rfl, rfl, rfl, .none rfl rfl, rfl, id⟩

theorem stepTask_effect {task : Task σ ν} (found : system.tasks[index]? = some task)
    (stepped : system.stepTask setup index = some after) :
    TaskEffect setup system after task.phase := by
  obtain ⟨next, step⟩ := stepTask_step found stepped
  exact step.effect

theorem step_stepped (stepped : system.step setup event = some after) :
    Stepped setup system after event := by
  cases event with
  | task index =>
      obtain ⟨task, found⟩ := stepTask_found stepped
      obtain ⟨next, step⟩ := stepTask_step found stepped
      exact .task found stepped step.move step.tasks step.frame step.effect
  | loop index heed =>
      obtain ⟨loop, found⟩ := stepLoop_found stepped
      obtain ⟨pulled, next, step⟩ := stepLoop_step found stepped
      exact .loop found (step.move.pull? found) step.move step.loops step.tasks step.frame
        (step.effect (stepLoop_permits found stepped))
  | _ =>
      obtain ⟨frame, effect⟩ := step_outside (by simp) (by simp) stepped
      exact .outside (fun _ => nofun) (fun _ _ => nofun) frame effect

theorem step_moved (stepped : system.step setup event = some after) :
    Moved setup system after event := by
  cases step_stepped stepped with
  | task found _ move moved frame _ => exact .task found move moved frame
  | loop found pull move moved born frame _ => exact .loop found pull move moved born frame
  | outside notTask notLoop frame _ => exact .outside notTask notLoop frame

end State

end TaskQueue.Consumer
