import TaskQueue.Proofs.Consumer.Custody

/-!
The attempts to end deliveries, in the order in which they are made, whoever makes them. A broker
for which failures are arranged refuses that many attempts, and accepts the others.
-/

namespace TaskQueue

namespace Broker

variable (broker : Broker) (tag : UInt64) (termination : Termination)

@[simp] theorem failing_terminate :
    (broker.terminate tag termination).2.failingTerminations =
      broker.failingTerminations - 1 := by
  unfold terminate
  split
  · rfl
  · simp only
    omega

theorem terminate_ok_iff :
    (broker.terminate tag termination).1 = .ok () ↔ broker.failingTerminations = 0 := by
  unfold terminate
  split
  · simp only [reduceCtorEq, false_iff]
    omega
  · simp only [true_iff]
    omega

end Broker

namespace Consumer

variable {σ ν : Type} {setup : Setup σ} {first system before after : State σ ν}
  {course : Course σ ν} {event : Event σ ν}

def Happening.call? (happening : Happening σ ν) : Option Call :=
  happening.deed?.bind fun doing => doing.2.call?

def Course.attempts (setup : Setup σ) (course : Course σ ν) : List Call :=
  course.gather Happening.call? setup

theorem Course.mem_attempts {index : Nat} {call : Call}
    (called : .called call ∈ course.deeds setup index) : call ∈ course.attempts setup := by
  obtain ⟨moment, passed, happening, happened, picked⟩ := mem_gather.mp called
  refine mem_gather.mpr ⟨moment, passed, happening, happened, ?_⟩
  cases happening with
  | task doer deed =>
      simp only [Happening.deedOf?, Option.ite_none_right_eq_some, Option.some.injEq] at picked
      obtain ⟨rfl, rfl⟩ := picked
      rfl
  | _ => simp [Happening.deedOf?] at picked

theorem TaskMove.result {delivery : Delivery} {queue : String} {phase next : TaskPhase σ ν}
    {call : Call} (move : TaskMove setup system delivery queue phase (some (.called call)) next) :
    call.result = (system.broker.terminate call.tag call.termination).1 := by
  cases move with
  | settle ended | refuse ended => exact ended.symm

/-- An attempt uses up one of the failures that are arranged; nothing else does, and none are added
but from outside. -/
theorem State.step_failing (unarranged : ∀ count, event ≠ .failTerminations count)
    (stepped : before.step setup event = some after) :
    after.broker.failingTerminations = before.broker.failingTerminations -
      ((before.happening? setup event).bind Happening.call?).toList.length := by
  cases State.step_moved stepped with
  | task found move moved frame =>
      rename_i doer task next
      rw [frame.broker]
      cases done : before.deed? setup doer with
      | none => simp [State.happening?, done, Deed.broker]
      | some deed =>
          cases deed with
          | called call =>
              simp [State.happening?, done, Deed.broker, Happening.call?, Happening.deed?,
                Deed.call?]
          | _ =>
              simp [State.happening?, done, Deed.broker, Happening.call?, Happening.deed?,
                Deed.call?]
  | loop found pull move moved born frame =>
      rename_i puller heed loop pulled next
      have same : after.broker.failingTerminations = before.broker.failingTerminations :=
        congrArg Prod.snd move.ends
      rw [same]
      cases pulled <;> simp [State.happening?, pull, Happening.call?, Happening.deed?]
  | outside notTask notLoop frame =>
      have same : after.broker.failingTerminations = before.broker.failingTerminations :=
        congrArg Prod.snd (frame.ends unarranged)
      rw [same]
      cases event with
      | task index => exact absurd rfl (notTask index)
      | loop index heed => exact absurd rfl (notLoop index heed)
      | _ => rfl

theorem State.step_attempt {call : Call} (stepped : before.step setup event = some after)
    (called : (before.happening? setup event).bind Happening.call? = some call) :
    call.result = .ok () ↔ before.broker.failingTerminations = 0 := by
  cases event with
  | task doer =>
      cases State.step_moved stepped with
      | task _ move _ _ =>
          cases done : before.deed? setup doer with
          | none => simp [State.happening?, done] at called
          | some deed =>
              have isCall : deed.call? = some call := by
                simpa [State.happening?, done, Happening.call?, Happening.deed?] using called
              cases deed with
              | called other =>
                  obtain rfl := Option.some.inj isCall
                  rw [done] at move
                  rw [move.result]
                  exact Broker.terminate_ok_iff _ _ _
              | _ => simp [Deed.call?] at isCall
      | outside notTask _ _ => exact absurd rfl (notTask doer)
  | loop puller heed =>
      cases pulled : before.pull? puller heed <;>
        simp [State.happening?, pulled, Happening.call?, Happening.deed?] at called
  | publish queue messageId body | publishTask ids queue param =>
      simp [State.happening?, Happening.call?, Happening.deed?] at called
  | _ => simp [State.happening?] at called

theorem Run.attempts (unarranged : ∀ moment ∈ course, ∀ count, moment.2 ≠ .failTerminations count)
    (run : Run setup first course system) :
    system.broker.failingTerminations =
        first.broker.failingTerminations - (course.attempts setup).length ∧
      ∀ place call, (course.attempts setup)[place]? = some call →
        (call.result = .ok () ↔ first.broker.failingTerminations ≤ place) := by
  induction run with
  | start => exact ⟨rfl, by simp [Course.attempts, Course.gather, Course.history]⟩
  | step run stepped ih =>
      rename_i course before after event
      obtain ⟨failing, answers⟩ := ih fun moment taken =>
        unarranged moment (List.mem_append_left _ taken)
      have unarrangedLast : ∀ count, event ≠ .failTerminations count :=
        unarranged (before, event) (List.mem_append_right _ List.mem_cons_self)
      have used := State.step_failing unarrangedLast stepped
      rw [Course.attempts, Course.gather_append, ← Course.attempts, List.length_append]
      refine ⟨by omega, ?_⟩
      intro place call found
      by_cases old : place < (course.attempts setup).length
      · rw [List.getElem?_append_left old] at found
        exact answers place call found
      · rw [List.getElem?_append_right (Nat.le_of_not_lt old)] at found
        cases called : (before.happening? setup event).bind Happening.call? with
        | none => simp [called] at found
        | some other =>
            rw [called, Option.toList_some] at found
            obtain ⟨isLast, sameCall⟩ := List.getElem?_eq_some_iff.mp found
            obtain rfl : other = call := by simpa using sameCall
            rw [List.length_singleton] at isLast
            rw [State.step_attempt stepped called, failing]
            omega

end Consumer

end TaskQueue
