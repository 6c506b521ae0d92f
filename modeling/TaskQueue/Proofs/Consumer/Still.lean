import TaskQueue.Proofs.Consumer.Fates
import TaskQueue.Proofs.Registry

/-!
Who does not touch what the handlers share: work that changes nothing of it, recoveries that leave
it alone, and everybody who is not a task. Which handlers may be called is known as long as only
such are registered.
-/

namespace TaskQueue

variable {σ ν : Type}

/-- Work that leaves alone what the handlers share. -/
def Work.Still : Work σ ν → Prop
  | .finish _ | .panic _ => True
  | .sleep _ next | .awaitCancel next | .cancel next | .note _ next => next.Still
  | .look next => ∀ cancelled, (next cancelled).Still
  | .access change next => (∀ state, change state = state) ∧ ∀ state, (next state).Still

theorem Work.Still.next {work rest : Work σ ν} (still : work.Still)
    (next : Consumer.Work.Next work rest) : rest.Still := by
  cases next with
  | look next cancelled => exact still cancelled
  | access change next state => exact still.2 state
  | _ => exact still

def Recovery.Still (recovery : Recovery σ) : Prop :=
  ∀ cancelled message state, (recovery cancelled message state).state = state

namespace Registry

variable {α : Type} {registry : Registry α} {fact : String → α → Prop} {name : String}

def Holds (registry : Registry α) (fact : String → α → Prop) : Prop :=
  ∀ name handler, registry.lookup name = some handler → fact name handler

theorem Holds.empty : (Registry.empty : Registry α).Holds fact := fun _ _ looked => nomatch looked

theorem Holds.register {handler : α} (holds : registry.Holds fact) (right : fact name handler) :
    (registry.register name handler).2.Holds fact := by
  intro other found looked
  rw [lookup_register] at looked
  split at looked
  · rename_i same
    obtain rfl := Option.some.inj looked
    exact same ▸ right
  · exact holds other found looked

theorem Holds.unregister (holds : registry.Holds fact) :
    (registry.unregister name).2.Holds fact := by
  intro other found looked
  rw [lookup_unregister] at looked
  split at looked
  · cases looked
  · exact holds other found looked

end Registry

namespace Consumer

variable {setup : Setup σ} {first before after system : State σ ν} {course : Course σ ν}
  {event : Event σ ν} {fact : String → Handler σ ν → Prop}

def TaskPhase.Still : TaskPhase σ ν → Prop
  | .running _ work _ | .sleeping _ _ work _ => work.Still
  | _ => True

theorem TaskPhase.Still.shared {phase : TaskPhase σ ν} {world : World σ} (still : phase.Still)
    (recovers : setup.recovery.Still) : (phase.worldAfter setup world).shared = world.shared := by
  cases phase with
  | running item work deadline =>
      cases work with
      | access change next => exact still.1 world.shared
      | _ => rfl
  | handlerPanicked _ cause | caught cause | uncaught cause => exact recovers _ _ _
  | _ => rfl

theorem LoopPhase.still_shared (recovers : setup.recovery.Still) (phase : LoopPhase)
    (world : World σ) : (phase.worldAfter setup world).shared = world.shared := by
  cases phase with
  | crashed cause => exact recovers _ _ _
  | _ => rfl

theorem State.step_shared (recovers : setup.recovery.Still) (notTask : ∀ index, event ≠ .task index)
    (stepped : before.step setup event = some after) : after.shared = before.shared := by
  cases step_stepped stepped with
  | task _ _ _ _ _ _ => exact absurd rfl (notTask _)
  | loop _ _ _ _ _ _ effect =>
      exact (congrArg World.shared effect.world).trans (LoopPhase.still_shared recovers _ _)
  | outside _ _ _ effect => exact effect.shared

def Event.Registers (fact : String → Handler σ ν → Prop) : Event σ ν → Prop
  | .register name handler => fact name handler
  | _ => True

theorem Event.registers_of_quiet (quiet : event.isQuiet = true) : event.Registers fact := by
  cases event with
  | register name handler => cases quiet
  | _ => trivial

theorem State.step_holds (registers : event.Registers fact) (holds : before.registry.Holds fact)
    (stepped : before.step setup event = some after) : after.registry.Holds fact := by
  cases State.step_moved stepped with
  | task _ _ _ frame => exact frame.registry ▸ holds
  | loop _ _ _ _ _ frame => exact frame.registry ▸ holds
  | outside _ _ frame =>
      rw [frame.registry]
      cases event with
      | register name handler => exact holds.register registers
      | unregister name => exact holds.unregister
      | _ => exact holds

theorem Exposed.holds (holds : first.registry.Holds fact)
    (exposed : Exposed setup first course system)
    (registers : ∀ moment ∈ course, moment.2.Registers fact) : system.registry.Holds fact := by
  induction exposed with
  | start => exact holds
  | step _ stepped ih =>
      have last := registers _ (List.mem_append_right _ List.mem_cons_self)
      have earlier := ih fun moment taken => registers moment (List.mem_append_left _ taken)
      exact State.step_holds last earlier stepped
  | elsewhere broker now _ ih => exact ih registers

end Consumer

end TaskQueue
