import TaskQueue.Proofs.Lists
import TaskQueue.Proofs.Trail
import TaskQueue.Worker

/-!
Runs of a pool of workers. What a step may have made of each function and of each who waits is said
once here; what a function did in a run, and what it handed to the pool, is read off the steps.
-/

namespace TaskQueue.Worker

variable {σ ν : Type} {recovery : Recovery σ} {pool before after : Workers σ ν} {event : Event ν}

inductive Deed (ν : Type)
  | looked (cancelled : Bool)
  | noted (note : ν)
  | handed (child : Routine ν)
  | returned
  | panicked (cause : Panic)
  | told (message : String)

namespace Deed

def child? : Deed ν → Option (Routine ν)
  | .handed child => some child
  | _ => none

def cause? : Deed ν → Option Panic
  | .panicked cause => some cause
  | _ => none

def message? : Deed ν → Option String
  | .told message => some message
  | _ => none

end Deed

def Phase.deed? (cancelled : Bool) : Phase ν → Option (Deed ν)
  | .running .finish => some .returned
  | .running (.panic cause) => some (.panicked cause)
  | .running (.look _) => some (.looked cancelled)
  | .running (.note left _) => some (.noted left)
  | .running (.go child _) => some (.handed child)
  | .panicked cause => some (.told cause.message)
  | _ => none

structure Telling where
  function : Nat
  cancelled : Bool
  message : String
deriving DecidableEq, Repr

namespace Workers

def deed? (pool : Workers σ ν) (index : Nat) : Option (Deed ν) :=
  pool.workers[index]?.bind (Phase.deed? pool.cancelled)

/-- What is handed to the pool, and by which of its functions, if by one. -/
def handed? (pool : Workers σ ν) : Event ν → Option (Option Nat × Routine ν)
  | .go routine => some (none, routine)
  | .worker index => ((pool.deed? index).bind Deed.child?).map fun child => (some index, child)
  | _ => none

def telling? (pool : Workers σ ν) : Event ν → Option Telling
  | .worker index =>
      ((pool.deed? index).bind Deed.message?).map fun message => ⟨index, pool.cancelled, message⟩
  | _ => none

def wait? (pool : Workers σ ν) : Event ν → Option Nat
  | .wait => some pool.workers.length
  | _ => none

end Workers

inductive PhaseMove (cancelled : Bool) (now : Nat) : Phase ν → Phase ν → Prop
  | finish : PhaseMove cancelled now (.running .finish) .finished
  | panic {cause : Panic} : PhaseMove cancelled now (.running (.panic cause)) (.panicked cause)
  | nap {next : Routine ν} : PhaseMove cancelled now (.running (.sleep 0 next)) (.running next)
  | sleep {milliseconds : Nat} {next : Routine ν} : milliseconds ≠ 0 →
      PhaseMove cancelled now (.running (.sleep milliseconds next))
        (.sleeping (now + milliseconds) next)
  | wake {moment : Nat} {next : Routine ν} : moment ≤ now →
      PhaseMove cancelled now (.sleeping moment next) (.running next)
  | awaitCancel {next : Routine ν} : cancelled = true →
      PhaseMove cancelled now (.running (.awaitCancel next)) (.running next)
  | look {next : Bool → Routine ν} :
      PhaseMove cancelled now (.running (.look next)) (.running (next cancelled))
  | note {left : ν} {next : Routine ν} :
      PhaseMove cancelled now (.running (.note left next)) (.running next)
  | go {child next : Routine ν} :
      PhaseMove cancelled now (.running (.go child next)) (.running next)
  | tell {cause : Panic} : PhaseMove cancelled now (.panicked cause) .recovered
  | leave : PhaseMove cancelled now .recovered .finished

theorem PhaseMove.not_finished {cancelled : Bool} {now : Nat} {phase next : Phase ν}
    (move : PhaseMove cancelled now phase next) : phase ≠ .finished := by
  cases move <;> exact nofun

def Workers.release (pool : Workers σ ν) (waiters : List WaiterPhase) : List WaiterPhase :=
  if pool.running = 0 then
    waiters.map fun phase => if phase = .waiting then .released else phase
  else waiters

/-- A step of a function: it moves on, and may have handed another one to the pool. -/
structure WorkerStep (recovery : Recovery σ) (before : Workers σ ν) (index : Nat)
    (phase next : Phase ν) (after : Workers σ ν) : Prop where
  found : before.workers[index]? = some phase
  move : PhaseMove before.cancelled before.now phase next
  workers : after.workers = before.workers.set index next ++
    (before.handed? (.worker index)).toList.map fun handed => .running handed.2
  waiters : after.waiters = after.release before.waiters ∨
    next.isFinished = false ∧ after.waiters = before.waiters
  shared : after.shared = ((before.telling? (.worker index)).toList.foldl
    (fun shared telling => (recovery telling.cancelled telling.message shared).state) before.shared)

section Steps

variable {index : Nat} {phase next : Phase ν}

theorem WorkerStep.quiet (found : before.workers[index]? = some phase)
    (move : PhaseMove before.cancelled before.now phase next)
    (unhanded : (phase.deed? before.cancelled).bind Deed.child? = none)
    (untold : (phase.deed? before.cancelled).bind Deed.message? = none)
    (workers : after.workers = before.workers.set index next)
    (waiters : after.waiters = after.release before.waiters ∨
      next.isFinished = false ∧ after.waiters = before.waiters)
    (shared : after.shared = before.shared) :
    WorkerStep recovery before index phase next after := by
  have deed : before.deed? index = phase.deed? before.cancelled := by
    rw [Workers.deed?, found, Option.bind_some]
  refine ⟨found, move, ?_, waiters, ?_⟩
  · rw [workers, Workers.handed?, deed, unhanded, Option.map_none, Option.toList_none,
      List.map_nil, List.append_nil]
  · rw [shared, Workers.telling?, deed, untold]
    rfl

theorem set_quiet (found : before.workers[index]? = some phase)
    (move : PhaseMove before.cancelled before.now phase next)
    (unhanded : (phase.deed? before.cancelled).bind Deed.child? = none)
    (untold : (phase.deed? before.cancelled).bind Deed.message? = none)
    (unfinished : next.isFinished = false) :
    WorkerStep recovery before index phase next (before.set index next) :=
  .quiet found move unhanded untold rfl (.inr ⟨unfinished, rfl⟩) rfl

@[simp] theorem finish_workers (pool : Workers σ ν) (index : Nat) :
    (pool.finish index).workers = pool.workers.set index .finished := by
  simp only [Workers.finish]
  split <;> rfl

@[simp] theorem finish_shared (pool : Workers σ ν) (index : Nat) :
    (pool.finish index).shared = pool.shared := by
  simp only [Workers.finish]
  split <;> rfl

theorem finish_waiters (pool : Workers σ ν) (index : Nat) :
    (pool.finish index).waiters = (pool.finish index).release pool.waiters := by
  have running : (pool.finish index).running = (pool.set index .finished).running := by
    rw [Workers.running, finish_workers]
    rfl
  rw [Workers.release, running]
  simp only [Workers.finish]
  split <;> rfl

theorem finish_quiet (found : before.workers[index]? = some phase)
    (move : PhaseMove before.cancelled before.now phase .finished)
    (unhanded : (phase.deed? before.cancelled).bind Deed.child? = none)
    (untold : (phase.deed? before.cancelled).bind Deed.message? = none) :
    WorkerStep recovery before index phase .finished (before.finish index) :=
  .quiet found move unhanded untold (finish_workers before index)
    (.inl (finish_waiters before index)) (finish_shared before index)

theorem stepRoutine_moved {routine : Routine ν}
    (found : before.workers[index]? = some (.running routine))
    (stepped : before.stepRoutine index routine = some after) :
    ∃ phase next, WorkerStep recovery before index phase next after := by
  cases routine with
  | finish =>
      obtain rfl := Option.some.inj stepped
      exact ⟨_, _, finish_quiet found .finish rfl rfl⟩
  | panic cause =>
      obtain rfl := Option.some.inj stepped
      exact ⟨_, _, set_quiet found .panic rfl rfl rfl⟩
  | sleep milliseconds routine =>
      simp only [Workers.stepRoutine] at stepped
      by_cases nap : milliseconds = 0
      · rw [if_pos nap] at stepped
        obtain rfl := nap
        obtain rfl := Option.some.inj stepped
        exact ⟨_, _, set_quiet found .nap rfl rfl rfl⟩
      · rw [if_neg nap] at stepped
        obtain rfl := Option.some.inj stepped
        exact ⟨_, _, set_quiet found (.sleep nap) rfl rfl rfl⟩
  | awaitCancel routine =>
      simp only [Workers.stepRoutine, Option.ite_none_right_eq_some, Option.some.injEq] at stepped
      obtain ⟨cancelled, rfl⟩ := stepped
      exact ⟨_, _, set_quiet found (.awaitCancel cancelled) rfl rfl rfl⟩
  | look routine =>
      obtain rfl := Option.some.inj stepped
      exact ⟨_, _, set_quiet found .look rfl rfl rfl⟩
  | note left routine =>
      obtain rfl := Option.some.inj stepped
      exact ⟨_, _, .quiet found .note rfl rfl rfl (.inr ⟨rfl, rfl⟩) rfl⟩
  | go child routine =>
      obtain rfl := Option.some.inj stepped
      refine ⟨_, _, found, .go, ?_, .inr ⟨rfl, rfl⟩, ?_⟩
      · have within := (List.getElem?_eq_some_iff.mp found).1
        simp [Workers.set, Workers.go, Workers.handed?, Workers.deed?, found, Phase.deed?,
          Deed.child?, List.set_append_left _ _ within]
      · simp [Workers.set, Workers.go, Workers.telling?, Workers.deed?, found, Phase.deed?,
          Deed.message?]

theorem stepWorker_moved (stepped : before.stepWorker recovery index = some after) :
    ∃ phase next, WorkerStep recovery before index phase next after := by
  unfold Workers.stepWorker at stepped
  cases found : before.workers[index]? with
  | none => simp [found] at stepped
  | some phase =>
      rw [found] at stepped
      cases phase with
      | running routine => exact stepRoutine_moved found stepped
      | sleeping moment routine =>
          simp only [Option.ite_none_right_eq_some, Option.some.injEq] at stepped
          obtain ⟨due, rfl⟩ := stepped
          exact ⟨_, _, set_quiet found (.wake due) rfl rfl rfl⟩
      | panicked cause =>
          obtain rfl := Option.some.inj stepped
          refine ⟨_, _, found, .tell, ?_, .inr ⟨rfl, rfl⟩, ?_⟩
          · simp [Workers.set, Workers.recover, Workers.handed?, Workers.deed?, found, Phase.deed?,
              Deed.child?]
          · simp [Workers.set, Workers.recover, Workers.telling?, Workers.deed?, found,
              Phase.deed?, Deed.message?]
      | recovered =>
          obtain rfl := Option.some.inj stepped
          exact ⟨_, _, finish_quiet found .leave rfl rfl⟩
      | finished => simp at stepped

end Steps

inductive WaiterMove (running : Nat) : WaiterPhase → WaiterPhase → Prop
  | pass : running = 0 → WaiterMove running .called .returned
  | wait : running ≠ 0 → WaiterMove running .called .waiting
  | leave : WaiterMove running .released .returned

theorem stepWaiter_moved {index : Nat} (stepped : before.stepWaiter index = some after) :
    ∃ phase next, before.waiters[index]? = some phase ∧ WaiterMove before.running phase next ∧
      after = before.setWaiter index next := by
  unfold Workers.stepWaiter at stepped
  cases found : before.waiters[index]? with
  | none => simp [found] at stepped
  | some phase =>
      rw [found] at stepped
      cases phase with
      | called =>
          obtain rfl := Option.some.inj stepped
          by_cases idle : before.running = 0
          · exact ⟨_, _, rfl, .pass idle, by rw [if_pos idle]⟩
          · exact ⟨_, _, rfl, .wait idle, by rw [if_neg idle]⟩
      | released =>
          obtain rfl := Option.some.inj stepped
          exact ⟨_, _, rfl, .leave, rfl⟩
      | waiting | returned => simp at stepped

/-- What is done from outside: a function is handed to the pool, or somebody begins to wait, or
neither. -/
structure OutsideStep (before : Workers σ ν) (event : Event ν) (after : Workers σ ν) : Prop where
  outside (doer : Nat) : event ≠ .worker doer
  workers : after.workers = before.workers ++
    (before.handed? event).toList.map fun handed => .running handed.2
  waiters : after.waiters = before.waiters ++ (before.wait? event).toList.map fun _ => .called
  untold : before.telling? event = none
  shared : after.shared = before.shared

theorem OutsideStep.quiet (outside : ∀ doer, event ≠ .worker doer)
    (unhanded : before.handed? event = none) (nobody : before.wait? event = none)
    (untold : before.telling? event = none) (workers : after.workers = before.workers)
    (waiters : after.waiters = before.waiters) (shared : after.shared = before.shared) :
    OutsideStep before event after := by
  refine ⟨outside, ?_, ?_, untold, shared⟩
  · simp [workers, unhanded]
  · simp [waiters, nobody]

inductive Stepped (recovery : Recovery σ) (before : Workers σ ν) : Event ν → Workers σ ν → Prop
  | worker {doer : Nat} {phase next : Phase ν} {after : Workers σ ν} :
      WorkerStep recovery before doer phase next after →
      Stepped recovery before (.worker doer) after
  | waiter {doer : Nat} {phase next : WaiterPhase} : before.waiters[doer]? = some phase →
      WaiterMove before.running phase next →
      Stepped recovery before (.waiter doer) (before.setWaiter doer next)
  | outside {event : Event ν} {after : Workers σ ν} : OutsideStep before event after →
      Stepped recovery before event after

theorem step_cases (stepped : before.step recovery event = some after) :
    Stepped recovery before event after := by
  cases event with
  | worker doer =>
      obtain ⟨phase, next, worked⟩ := stepWorker_moved stepped
      exact .worker worked
  | waiter doer =>
      obtain ⟨phase, next, found, move, rfl⟩ := stepWaiter_moved stepped
      exact .waiter found move
  | tick moment =>
      unfold Workers.step Workers.tick at stepped
      rw [Option.ite_none_right_eq_some] at stepped
      obtain rfl := Option.some.inj stepped.2
      exact .outside (.quiet nofun rfl rfl rfl rfl rfl rfl)
  | go routine =>
      obtain rfl := Option.some.inj stepped
      exact .outside ⟨nofun, rfl, (List.append_nil _).symm, rfl, rfl⟩
  | wait =>
      obtain rfl := Option.some.inj stepped
      exact .outside ⟨nofun, (List.append_nil _).symm, rfl, rfl, rfl⟩
  | cancel | cancelRoot =>
      obtain rfl := Option.some.inj stepped
      exact .outside (.quiet nofun rfl rfl rfl rfl rfl rfl)

theorem step_shared (stepped : before.step recovery event = some after) :
    after.shared = ((before.telling? event).toList.foldl
      (fun shared telling => (recovery telling.cancelled telling.message shared).state)
      before.shared) := by
  cases step_cases stepped with
  | worker worked => exact worked.shared
  | waiter _ _ => rfl
  | outside outside =>
      rw [outside.untold, outside.shared]
      rfl

inductive Placed (before : Workers σ ν) (index : Nat) : Event ν → Phase ν → Prop
  | kept {event : Event ν} {phase : Phase ν} : before.workers[index]? = some phase →
      event ≠ .worker index → Placed before index event phase
  | moved {phase next : Phase ν} : before.workers[index]? = some phase →
      PhaseMove before.cancelled before.now phase next → Placed before index (.worker index) next
  | born {event : Event ν} {origin : Option Nat} {routine : Routine ν} :
      index = before.workers.length → before.handed? event = some (origin, routine) →
      Placed before index event (.running routine)

theorem step_workers (stepped : before.step recovery event = some after) :
    ∃ moved, after.workers = moved ++
        (before.handed? event).toList.map (fun handed => .running handed.2) ∧
      moved.length = before.workers.length ∧
      ∀ index phase, moved[index]? = some phase → Placed before index event phase := by
  cases step_cases stepped with
  | @worker doer phase next _ worked =>
      refine ⟨_, worked.workers, List.length_set, ?_⟩
      intro index other foundOther
      rw [List.getElem?_set] at foundOther
      by_cases same : doer = index
      · subst doer
        have within := (List.getElem?_eq_some_iff.mp worked.found).1
        obtain rfl : next = other := by simpa [within] using foundOther
        exact .moved worked.found worked.move
      · rw [if_neg same] at foundOther
        exact .kept foundOther fun event => same (Event.worker.inj event)
  | waiter _ _ =>
      refine ⟨_, (List.append_nil _).symm, rfl, ?_⟩
      intro index phase found
      exact .kept found nofun
  | outside outside =>
      refine ⟨_, outside.workers, rfl, ?_⟩
      intro index phase found
      exact .kept found (outside.outside index)

theorem step_placed {index : Nat} {phase : Phase ν}
    (stepped : before.step recovery event = some after)
    (found : after.workers[index]? = some phase) : Placed before index event phase := by
  obtain ⟨moved, workers, length, placed⟩ := step_workers stepped
  rw [workers] at found
  cases handed : before.handed? event with
  | none =>
      rw [handed, Option.toList_none, List.map_nil, List.append_nil] at found
      exact placed index phase found
  | some newcomer =>
      rw [handed, Option.toList_some, List.map_singleton] at found
      rcases getElem?_concat_cases found with old | ⟨last, rfl⟩
      · exact placed index phase old
      · exact .born (last.trans length) handed

theorem step_length (stepped : before.step recovery event = some after) :
    after.workers.length = before.workers.length + (before.handed? event).toList.length := by
  obtain ⟨moved, workers, length, _⟩ := step_workers stepped
  rw [workers, List.length_append, List.length_map, length]

theorem step_newcomer {origin : Option Nat} {routine : Routine ν}
    (stepped : before.step recovery event = some after)
    (handed : before.handed? event = some (origin, routine)) :
    after.workers[before.workers.length]? = some (.running routine) := by
  obtain ⟨moved, workers, length, _⟩ := step_workers stepped
  rw [workers, handed, ← length]
  exact List.getElem?_concat_length

theorem found_after {index : Nat} {phase : Phase ν}
    (stepped : before.step recovery event = some after)
    (found : before.workers[index]? = some phase) :
    ∃ next, after.workers[index]? = some next ∧ Placed before index event next := by
  have within := (List.getElem?_eq_some_iff.mp found).1
  have more := step_length stepped
  have bound : index < after.workers.length := by omega
  exact ⟨_, List.getElem?_eq_getElem bound, step_placed stepped (List.getElem?_eq_getElem bound)⟩

theorem step_apart {doer index : Nat} {phase : Phase ν}
    (stepped : before.step recovery (.worker doer) = some after) (different : doer ≠ index)
    (found : before.workers[index]? = some phase) : after.workers[index]? = some phase := by
  obtain ⟨next, foundNext, placed⟩ := found_after stepped found
  cases placed with
  | kept same _ => rwa [foundNext, ← same]
  | moved _ _ => exact absurd rfl different
  | born new _ =>
      have within := (List.getElem?_eq_some_iff.mp found).1
      omega

theorem finished_after {index : Nat} (stepped : before.step recovery event = some after)
    (finished : before.workers[index]? = some .finished) :
    after.workers[index]? = some .finished := by
  obtain ⟨next, found, placed⟩ := found_after stepped finished
  rw [found]
  cases placed with
  | kept same _ => exact same.symm.trans finished
  | moved moves move =>
      obtain rfl := Option.some.inj (finished.symm.trans moves)
      exact absurd rfl move.not_finished
  | born new _ =>
      have within := (List.getElem?_eq_some_iff.mp finished).1
      omega

theorem running_eq_zero : pool.running = 0 ↔ ∀ phase ∈ pool.workers, phase.isFinished = true := by
  simp [Workers.running, List.countP_eq_zero]

inductive WaiterPlaced (before after : Workers σ ν) (index : Nat) : WaiterPhase → Prop
  | kept {phase : WaiterPhase} : before.waiters[index]? = some phase →
      (phase = .waiting → after.running = 0 → before.running = 0) →
      WaiterPlaced before after index phase
  | moved {phase next : WaiterPhase} : before.waiters[index]? = some phase →
      WaiterMove before.running phase next → after.workers = before.workers →
      WaiterPlaced before after index next
  | released : before.waiters[index]? = some .waiting → after.running = 0 →
      WaiterPlaced before after index .released
  | called : WaiterPlaced before after index .called

section Waiters

variable {index : Nat} {phase : WaiterPhase}

theorem release_placed (released : after.waiters = after.release before.waiters)
    (found : after.waiters[index]? = some phase) : WaiterPlaced before after index phase := by
  rw [released, Workers.release] at found
  by_cases idle : after.running = 0
  · rw [if_pos idle, List.getElem?_map, Option.map_eq_some_iff] at found
    obtain ⟨old, foundOld, rfl⟩ := found
    by_cases waits : old = .waiting
    · rw [if_pos waits]
      exact .released (waits ▸ foundOld) idle
    · rw [if_neg waits]
      exact .kept foundOld fun isWaiting => absurd isWaiting waits
  · rw [if_neg idle] at found
    exact .kept found fun _ none => absurd none idle

theorem step_waiters (stepped : before.step recovery event = some after)
    (found : after.waiters[index]? = some phase) : WaiterPlaced before after index phase := by
  cases step_cases stepped with
  | @worker doer _ next _ worked =>
      rcases worked.waiters with released | ⟨unfinished, same⟩
      · exact release_placed released found
      · rw [same] at found
        refine .kept found fun _ idle => ?_
        have within := (List.getElem?_eq_some_iff.mp worked.found).1
        have taken : next ∈ after.workers := by
          rw [worked.workers]
          exact List.mem_append_left _ (List.mem_set within next)
        rw [running_eq_zero.mp idle next taken] at unfinished
        simp at unfinished
  | @waiter doer _ next foundOld move =>
      rw [Workers.setWaiter, List.getElem?_set] at found
      by_cases same : doer = index
      · subst doer
        have within := (List.getElem?_eq_some_iff.mp foundOld).1
        obtain rfl : next = phase := by simpa [within] using found
        exact .moved foundOld move rfl
      · rw [if_neg same] at found
        exact .kept found fun _ idle => idle
  | outside outside =>
      rw [outside.waiters] at found
      by_cases old : index < before.waiters.length
      · rw [List.getElem?_append_left old] at found
        refine .kept found fun _ idle => running_eq_zero.mpr fun other taken => ?_
        apply running_eq_zero.mp idle
        rw [outside.workers]
        exact List.mem_append_left _ taken
      · rw [List.getElem?_append_right (Nat.not_lt.mp old)] at found
        obtain ⟨_, _, rfl⟩ := List.mem_map.mp (List.mem_of_getElem? found)
        exact .called

theorem step_waiters_length (stepped : before.step recovery event = some after) :
    after.waiters.length = before.waiters.length + (before.wait? event).toList.length := by
  cases step_cases stepped with
  | worker worked =>
      rcases worked.waiters with released | ⟨_, same⟩
      · rw [released, Workers.release]
        split
        · exact List.length_map _
        · rfl
      · rw [same]
        rfl
  | waiter _ _ => exact List.length_set
  | outside outside => rw [outside.waiters, List.length_append, List.length_map]

end Waiters

end TaskQueue.Worker
