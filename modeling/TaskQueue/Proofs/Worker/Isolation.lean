import TaskQueue.Proofs.Worker.Run

/-!
What a pool of workers owes to those who use it, whatever the functions do and however their steps
are mixed. Who waits goes on only when everything that was handed on before, and everything that
came of it, has ended; the recovery is told of each breakdown once, and of nothing else; and a
breakdown takes no other function away.
-/

namespace TaskQueue

section Performance

variable {ν : Type} {routine : Routine ν} {deeds : List (Worker.Deed ν)}

/-- What a routine does until it ends. It depends on what it sees of the cancellation alone. -/
inductive Routine.Performs : Routine ν → List (Worker.Deed ν) → Prop
  | finish : Performs .finish [.returned]
  | panic {cause : Panic} : Performs (.panic cause) [.panicked cause, .told cause.message]
  | sleep {milliseconds : Nat} {next : Routine ν} {deeds : List (Worker.Deed ν)} :
      Performs next deeds → Performs (.sleep milliseconds next) deeds
  | awaitCancel {next : Routine ν} {deeds : List (Worker.Deed ν)} :
      Performs next deeds → Performs (.awaitCancel next) deeds
  | look {next : Bool → Routine ν} {cancelled : Bool} {deeds : List (Worker.Deed ν)} :
      Performs (next cancelled) deeds → Performs (.look next) (.looked cancelled :: deeds)
  | note {left : ν} {next : Routine ν} {deeds : List (Worker.Deed ν)} :
      Performs next deeds → Performs (.note left next) (.noted left :: deeds)
  | go {child next : Routine ν} {deeds : List (Worker.Deed ν)} :
      Performs next deeds → Performs (.go child next) (.handed child :: deeds)

theorem Routine.exists_performs (routine : Routine ν) : ∃ deeds, routine.Performs deeds := by
  induction routine with
  | finish => exact ⟨_, .finish⟩
  | panic cause => exact ⟨_, .panic⟩
  | sleep milliseconds next ih =>
      obtain ⟨deeds, performs⟩ := ih
      exact ⟨_, .sleep performs⟩
  | awaitCancel next ih =>
      obtain ⟨deeds, performs⟩ := ih
      exact ⟨_, .awaitCancel performs⟩
  | look next ih =>
      obtain ⟨deeds, performs⟩ := ih false
      exact ⟨_, .look performs⟩
  | note left next ih =>
      obtain ⟨deeds, performs⟩ := ih
      exact ⟨_, .note performs⟩
  | go child next _ ih =>
      obtain ⟨deeds, performs⟩ := ih
      exact ⟨_, .go performs⟩

theorem Routine.Performs.causes_length (performs : routine.Performs deeds) :
    (deeds.filterMap Worker.Deed.cause?).length ≤ 1 := by
  induction performs with
  | finish => exact Nat.zero_le 1
  | panic => exact Nat.le_refl 1
  | sleep _ ih | awaitCancel _ ih | look _ ih | note _ ih | go _ ih => exact ih

namespace Worker

inductive Phase.Completes : Phase ν → List (Deed ν) → Prop
  | running {routine : Routine ν} {deeds : List (Deed ν)} :
      routine.Performs deeds → Completes (.running routine) deeds
  | sleeping {wake : Nat} {routine : Routine ν} {deeds : List (Deed ν)} :
      routine.Performs deeds → Completes (.sleeping wake routine) deeds
  | panicked {cause : Panic} : Completes (.panicked cause) [.told cause.message]
  | recovered : Completes .recovered []
  | finished : Completes .finished []

theorem Phase.exists_completes (phase : Phase ν) : ∃ rest, phase.Completes rest := by
  cases phase with
  | running routine =>
      obtain ⟨rest, performs⟩ := routine.exists_performs
      exact ⟨rest, .running performs⟩
  | sleeping wake routine =>
      obtain ⟨rest, performs⟩ := routine.exists_performs
      exact ⟨rest, .sleeping performs⟩
  | panicked cause => exact ⟨_, .panicked⟩
  | recovered => exact ⟨_, .recovered⟩
  | finished => exact ⟨_, .finished⟩

theorem PhaseMove.completes {cancelled : Bool} {now : Nat} {phase next : Phase ν}
    {rest : List (Deed ν)} (move : PhaseMove cancelled now phase next)
    (completes : next.Completes rest) :
    phase.Completes ((phase.deed? cancelled).toList ++ rest) := by
  cases move with
  | finish => cases completes; exact .running .finish
  | panic => cases completes; exact .running .panic
  | nap => cases completes with | running performs => exact .running (.sleep performs)
  | sleep _ => cases completes with | sleeping performs => exact .running (.sleep performs)
  | wake _ => cases completes with | running performs => exact .sleeping performs
  | awaitCancel _ =>
      cases completes with
      | running performs => exact .running (.awaitCancel performs)
  | look => cases completes with | running performs => exact .running (.look performs)
  | note => cases completes with | running performs => exact .running (.note performs)
  | go => cases completes with | running performs => exact .running (.go performs)
  | tell => cases completes; exact .panicked
  | leave => cases completes; exact .recovered

end Worker

/-- A function that did this is, in this phase, on the way through its routine: however it ends, it
will have done what the routine performs. -/
structure Routine.Underway (routine : Routine ν) (deeds : List (Worker.Deed ν))
    (phase : Worker.Phase ν) : Prop where
  ends : ∃ rest, phase.Completes rest
  fits : ∀ rest, phase.Completes rest → routine.Performs (deeds ++ rest)

theorem Routine.underway_start (routine : Routine ν) : routine.Underway [] (.running routine) := by
  refine ⟨Worker.Phase.exists_completes _, fun rest completes => ?_⟩
  cases completes with
  | running performs => exact performs

theorem Routine.Underway.move {cancelled : Bool} {now : Nat} {phase next : Worker.Phase ν}
    (underway : routine.Underway deeds phase) (move : Worker.PhaseMove cancelled now phase next) :
    routine.Underway (deeds ++ (phase.deed? cancelled).toList) next := by
  refine ⟨next.exists_completes, fun rest completes => ?_⟩
  rw [List.append_assoc]
  exact underway.fits _ (move.completes completes)

theorem Routine.Underway.performs (underway : routine.Underway deeds .finished) :
    routine.Performs deeds := by
  have performs := underway.fits [] .finished
  rwa [List.append_nil] at performs

theorem Routine.Underway.causes_length {phase : Worker.Phase ν}
    (underway : routine.Underway deeds phase) :
    (deeds.filterMap Worker.Deed.cause?).length ≤ 1 := by
  obtain ⟨rest, completes⟩ := underway.ends
  have most := (underway.fits rest completes).causes_length
  rw [List.filterMap_append, List.length_append] at most
  omega

end Performance

namespace Worker

variable {σ ν : Type} {recovery : Recovery σ} {shared : σ} {pool before after : Workers σ ν}
  {event : Event ν}

abbrev Course (σ ν : Type) := List (Workers σ ν × Event ν)

variable {course : Course σ ν}

def Workers.deedOf? (pool : Workers σ ν) (index : Nat) : Event ν → Option (Deed ν)
  | .worker doer => if doer = index then pool.deed? index else none
  | _ => none

namespace Course

def deeds (course : Course σ ν) (index : Nat) : List (Deed ν) :=
  course.filterMap fun moment => moment.1.deedOf? index moment.2

def causes (course : Course σ ν) (index : Nat) : List Panic :=
  (course.deeds index).filterMap Deed.cause?

/-- The functions in the order they were handed on, each with the function that did so. -/
def handed (course : Course σ ν) : List (Option Nat × Routine ν) :=
  course.filterMap fun moment => moment.1.handed? moment.2

def children (course : Course σ ν) (index : Nat) : List (Routine ν) :=
  course.handed.filterMap fun handed => if handed.1 = some index then some handed.2 else none

def waits (course : Course σ ν) : List Nat :=
  course.filterMap fun moment => moment.1.wait? moment.2

def tellings (course : Course σ ν) : List Telling :=
  course.filterMap fun moment => moment.1.telling? moment.2

def told (course : Course σ ν) (index : Nat) : List String :=
  course.tellings.filterMap fun telling =>
    if telling.function = index then some telling.message else none

/-- A function comes of another: it is that function, or was handed on by one that comes of it. -/
inductive Descends (course : Course σ ν) (ancestor : Nat) : Nat → Prop
  | self : Descends course ancestor ancestor
  | child {parent child : Nat} {routine : Routine ν} : Descends course ancestor parent →
      course.handed[child]? = some (some parent, routine) → Descends course ancestor child

theorem picked_eq {α β : Type} {index doer : Nat} {pick : Deed ν → Option α} {mark : α → β}
    {unmark : β → Option α}
    (own : ∀ value, unmark (mark value) = if doer = index then some value else none) :
    (((pool.deed? doer).bind pick).map mark).bind unmark =
      (pool.deedOf? index (.worker doer)).bind pick := by
  by_cases same : doer = index
  · subst doer
    cases picked : (pool.deed? index).bind pick <;> simp [Workers.deedOf?, picked, own]
  · cases picked : (pool.deed? doer).bind pick <;> simp [Workers.deedOf?, own, same]

theorem children_eq (course : Course σ ν) (index : Nat) :
    course.children index = (course.deeds index).filterMap Deed.child? := by
  rw [children, handed, deeds, List.filterMap_filterMap, List.filterMap_filterMap]
  refine congrArg (List.filterMap · course) (funext fun moment => ?_)
  cases event : moment.2 with
  | worker doer => exact picked_eq fun child => by simp
  | waiter _ | tick _ | go _ | wait | cancel | cancelRoot => rfl

theorem told_eq (course : Course σ ν) (index : Nat) :
    course.told index = (course.deeds index).filterMap Deed.message? := by
  rw [told, tellings, deeds, List.filterMap_filterMap, List.filterMap_filterMap]
  refine congrArg (List.filterMap · course) (funext fun moment => ?_)
  cases event : moment.2 with
  | worker doer => exact picked_eq fun message => rfl
  | waiter _ | tick _ | go _ | wait | cancel | cancelRoot => rfl

end Course

section Concat

variable (course) (before) (event)

@[simp] theorem deeds_concat (index : Nat) : Course.deeds (course ++ [(before, event)]) index =
    course.deeds index ++ (before.deedOf? index event).toList := filterMap_concat _ _ _

@[simp] theorem handed_concat : Course.handed (course ++ [(before, event)]) =
    course.handed ++ (before.handed? event).toList := filterMap_concat _ _ _

theorem handed_cases {course : Course σ ν} {before : Workers σ ν} {event : Event ν} {index : Nat}
    {entry : Option Nat × Routine ν}
    (handed : (Course.handed (course ++ [(before, event)]))[index]? = some entry) :
    course.handed[index]? = some entry ∨
      index = course.handed.length ∧ before.handed? event = some entry := by
  rw [handed_concat] at handed
  cases new : before.handed? event with
  | none =>
      rw [new, Option.toList_none, List.append_nil] at handed
      exact .inl handed
  | some newcomer =>
      rw [new] at handed
      exact (getElem?_concat_cases handed).imp_right fun last => ⟨last.1, by rw [last.2]⟩

@[simp] theorem waits_concat : Course.waits (course ++ [(before, event)]) =
    course.waits ++ (before.wait? event).toList := filterMap_concat _ _ _

@[simp] theorem tellings_concat : Course.tellings (course ++ [(before, event)]) =
    course.tellings ++ (before.telling? event).toList := filterMap_concat _ _ _

end Concat

section Deeds

variable {index : Nat} {phase next : Phase ν}

theorem deedOf_of_ne (other : event ≠ .worker index) : pool.deedOf? index event = none := by
  cases event with
  | worker doer => exact if_neg fun same => other (congrArg Event.worker same)
  | waiter _ | tick _ | go _ | wait | cancel | cancelRoot => rfl

theorem deedOf_worker (found : pool.workers[index]? = some phase) :
    pool.deedOf? index (.worker index) = phase.deed? pool.cancelled := by
  rw [Workers.deedOf?, if_pos rfl, Workers.deed?, found, Option.bind_some]

theorem deedOf_beyond (beyond : pool.workers.length ≤ index) :
    pool.deedOf? index event = none := by
  cases event with
  | worker doer =>
      rw [Workers.deedOf?, Workers.deed?, List.getElem?_eq_none beyond, Option.bind_none, ite_self]
  | waiter _ | tick _ | go _ | wait | cancel | cancelRoot => rfl

theorem underway_step {routine : Routine ν} {deeds : List (Deed ν)}
    (found : before.workers[index]? = some phase) (placed : Placed before index event next)
    (underway : routine.Underway deeds phase) :
    routine.Underway (deeds ++ (before.deedOf? index event).toList) next := by
  cases placed with
  | kept same other =>
      obtain rfl := Option.some.inj (found.symm.trans same)
      rwa [deedOf_of_ne other, Option.toList_none, List.append_nil]
  | moved same move =>
      obtain rfl := Option.some.inj (found.symm.trans same)
      rw [deedOf_worker found]
      exact underway.move move
  | born new _ =>
      have within := (List.getElem?_eq_some_iff.mp found).1
      omega

end Deeds

abbrev Workers.Run (recovery : Recovery σ) (shared : σ) :
    Course σ ν → Workers σ ν → Prop :=
  Trail (fun pool event => pool.step recovery event) (.start shared)

namespace Workers.Run

theorem length_eq (run : Workers.Run recovery shared course pool) :
    pool.workers.length = course.handed.length := by
  induction run with
  | start => rfl
  | step _ stepped ih => rw [step_length stepped, ih, handed_concat, List.length_append]

theorem deeds_beyond {index : Nat} (run : Workers.Run recovery shared course pool)
    (beyond : pool.workers.length ≤ index) : course.deeds index = [] := by
  induction run with
  | start => rfl
  | step _ stepped ih =>
      have more := step_length stepped
      rw [deeds_concat, ih (by omega), deedOf_beyond (by omega)]
      rfl

theorem underway {index : Nat} {origin : Option Nat} {routine : Routine ν}
    (run : Workers.Run recovery shared course pool)
    (handed : course.handed[index]? = some (origin, routine)) :
    ∃ phase, pool.workers[index]? = some phase ∧ routine.Underway (course.deeds index) phase := by
  induction run with
  | start => simp [Course.handed] at handed
  | @step course before after event earlier stepped ih =>
      rw [deeds_concat]
      rcases handed_cases handed with old | ⟨last, new⟩
      · obtain ⟨phase, found, underway⟩ := ih old
        obtain ⟨next, foundNext, placed⟩ := found_after stepped found
        exact ⟨next, foundNext, underway_step found placed underway⟩
      · obtain rfl := last.trans (length_eq earlier).symm
        rw [deeds_beyond earlier (Nat.le_refl _), deedOf_beyond (Nat.le_refl _)]
        exact ⟨_, step_newcomer stepped new, routine.underway_start⟩

end Workers.Run

def Phase.untold : Phase ν → List String
  | .panicked cause => [cause.message]
  | _ => []

def Workers.untold (pool : Workers σ ν) (index : Nat) : List String :=
  pool.workers[index]?.elim [] Phase.untold

theorem PhaseMove.untold_eq {cancelled : Bool} {now : Nat} {phase next : Phase ν}
    (move : PhaseMove cancelled now phase next) :
    ((phase.deed? cancelled).bind Deed.message?).toList ++ next.untold =
      phase.untold ++ ((phase.deed? cancelled).bind Deed.cause?).toList.map Panic.message := by
  cases move <;> rfl

theorem untold_step (stepped : before.step recovery event = some after) (index : Nat) :
    ((before.deedOf? index event).bind Deed.message?).toList ++ after.untold index =
      before.untold index ++
        ((before.deedOf? index event).bind Deed.cause?).toList.map Panic.message := by
  have quiet (none : before.deedOf? index event = none)
      (same : after.untold index = before.untold index) :
      ((before.deedOf? index event).bind Deed.message?).toList ++ after.untold index =
        before.untold index ++
          ((before.deedOf? index event).bind Deed.cause?).toList.map Panic.message := by
    rw [none, same]
    exact (List.append_nil _).symm
  cases found : after.workers[index]? with
  | none =>
      have beyond := List.getElem?_eq_none_iff.mp found
      have more := step_length stepped
      have beyondBefore : before.workers.length ≤ index := by omega
      refine quiet (deedOf_beyond beyondBefore) ?_
      rw [Workers.untold, Workers.untold, found, List.getElem?_eq_none beyondBefore]
  | some phase =>
      cases step_placed stepped found with
      | kept same other =>
          refine quiet (deedOf_of_ne other) ?_
          rw [Workers.untold, Workers.untold, found, same]
      | moved old move =>
          rw [deedOf_worker old, Workers.untold, Workers.untold, found, old]
          exact move.untold_eq
      | born new _ =>
          refine quiet (deedOf_beyond (Nat.le_of_eq new.symm)) ?_
          rw [Workers.untold, Workers.untold, found, List.getElem?_eq_none (Nat.le_of_eq new.symm)]
          rfl

namespace Workers.Run

theorem told_untold (run : Workers.Run recovery shared course pool) (index : Nat) :
    course.told index ++ pool.untold index = (course.causes index).map Panic.message := by
  rw [Course.told_eq, Course.causes]
  induction run with
  | start => rfl
  | @step course before after event _ stepped ih =>
      rw [deeds_concat, List.filterMap_append, List.filterMap_append, filterMap_toList,
        filterMap_toList, List.append_assoc, untold_step stepped, ← List.append_assoc, ih,
        List.map_append]

theorem causes_length (run : Workers.Run recovery shared course pool) (index : Nat) :
    (course.causes index).length ≤ 1 := by
  by_cases within : index < course.handed.length
  · obtain ⟨phase, _, underway⟩ := run.underway (List.getElem?_eq_getElem within)
    exact underway.causes_length
  · rw [← run.length_eq, Nat.not_lt] at within
    rw [Course.causes, run.deeds_beyond within]
    exact Nat.zero_le 1

theorem shared_eq (run : Workers.Run recovery shared course pool) :
    pool.shared = course.tellings.foldl
      (fun state telling => (recovery telling.cancelled telling.message state).state) shared := by
  induction run with
  | start => rfl
  | step _ stepped ih => rw [step_shared stepped, ih, tellings_concat, List.foldl_append]

end Workers.Run

namespace Course

def Covered (course : Course σ ν) (count : Nat) (pool : Workers σ ν) : Prop :=
  ∀ ancestor function, ancestor < count → course.Descends ancestor function →
    pool.workers[function]? = some .finished

theorem Descends.earlier {ancestor function : Nat}
    (ended : ∀ descendant, course.Descends ancestor descendant →
      before.workers[descendant]? = some .finished)
    (descends : Course.Descends (course ++ [(before, event)]) ancestor function) :
    course.Descends ancestor function := by
  induction descends with
  | self => exact .self
  | @child parent child routine _ handed ih =>
      rcases handed_cases handed with old | ⟨_, new⟩
      · exact .child ih old
      · cases event with
        | worker doer =>
            rw [Workers.handed?, Option.map_eq_some_iff] at new
            obtain ⟨_, does, equal⟩ := new
            obtain rfl := Option.some.inj (Prod.mk.inj equal).1
            rw [Workers.deed?, ended doer ih] at does
            simp [Phase.deed?] at does
        | waiter _ | tick _ | go _ | wait | cancel | cancelRoot => simp [Workers.handed?] at new

theorem Covered.step {count : Nat} (covered : course.Covered count before)
    (stepped : before.step recovery event = some after) :
    Covered (course ++ [(before, event)]) count after := by
  intro ancestor function early descends
  have earlier := descends.earlier fun descendant => covered ancestor descendant early
  exact finished_after stepped (covered ancestor function early earlier)

end Course

namespace Workers.Run

theorem covered_idle {count : Nat} (run : Workers.Run recovery shared course pool)
    (idle : pool.running = 0) (known : count ≤ pool.workers.length) :
    course.Covered count pool := by
  intro ancestor function early descends
  have within : function < pool.workers.length := by
    cases descends with
    | self => omega
    | child _ handed =>
        rw [run.length_eq]
        exact (List.getElem?_eq_some_iff.mp handed).1
  have finished := running_eq_zero.mp idle _ (List.getElem_mem within)
  rw [List.getElem?_eq_getElem within]
  cases phase : pool.workers[function] with
  | finished => rfl
  | running _ | sleeping _ _ | panicked _ | recovered => simp [phase, Phase.isFinished] at finished

theorem waits_length (run : Workers.Run recovery shared course pool) :
    pool.waiters.length = course.waits.length := by
  induction run with
  | start => rfl
  | step _ stepped ih => rw [step_waiters_length stepped, ih, waits_concat, List.length_append]

theorem waits_known (run : Workers.Run recovery shared course pool) :
    ∀ count ∈ course.waits, count ≤ pool.workers.length := by
  induction run with
  | start => simp [Course.waits]
  | @step course before after event _ stepped ih =>
      intro count taken
      have more := step_length stepped
      rw [waits_concat, List.mem_append] at taken
      rcases taken with old | new
      · have known := ih count old
        omega
      · cases event with
        | wait =>
            obtain rfl : count = before.workers.length := by simpa [Workers.wait?] using new
            omega
        | worker _ | waiter _ | tick _ | go _ | cancel | cancelRoot => simp [Workers.wait?] at new

/-- Who is let go waits for nothing that was handed on before, nor for anything that came of it. -/
theorem covered {waiter count : Nat} {phase : WaiterPhase}
    (run : Workers.Run recovery shared course pool) (waits : course.waits[waiter]? = some count)
    (found : pool.waiters[waiter]? = some phase) (gone : phase = .released ∨ phase = .returned) :
    course.Covered count pool := by
  induction run generalizing phase with
  | start => simp [Course.waits] at waits
  | @step course before after event earlier stepped ih =>
      have run := earlier.step stepped
      have known := waits_known run count (List.mem_of_getElem? waits)
      have waited {old : WaiterPhase} (foundOld : before.waiters[waiter]? = some old) :
          (Course.waits course)[waiter]? = some count := by
        have within := (List.getElem?_eq_some_iff.mp foundOld).1
        rw [waits_length earlier] at within
        rwa [waits_concat, List.getElem?_append_left within] at waits
      cases step_waiters stepped found with
      | kept old _ => exact (ih (waited old) old gone).step stepped
      | released _ idle => exact covered_idle run idle known
      | called => simp at gone
      | @moved oldPhase _ old move same =>
          cases move with
          | pass idle =>
              refine covered_idle run ?_ known
              rwa [Workers.running, same]
          | wait _ => simp at gone
          | leave => exact (ih (waited old) old (.inl rfl)).step stepped

theorem awake (run : Workers.Run recovery shared course pool) (idle : pool.running = 0) :
    WaiterPhase.waiting ∉ pool.waiters := by
  induction run with
  | start => exact List.not_mem_nil
  | @step course before after event _ stepped ih =>
      intro taken
      obtain ⟨waiter, found⟩ := List.mem_iff_getElem?.mp taken
      cases step_waiters stepped found with
      | kept old drained => exact ih (drained rfl idle) (List.mem_of_getElem? old)
      | moved _ move same =>
          cases move with
          | wait busy =>
              apply busy
              rwa [Workers.running, ← same]

end Workers.Run

structure Sheltered (recovery : Recovery σ) (shared : σ) (course : Course σ ν)
    (pool : Workers σ ν) : Prop where
  waits_length : pool.waiters.length = course.waits.length
  /-- Whoever goes on has waited for all that was handed on before, and for all that came of it. -/
  covered (waiter : Nat) {count ancestor function : Nat} : course.waits[waiter]? = some count →
    pool.waiters[waiter]? = some .returned → ancestor < count →
    course.Descends ancestor function → pool.workers[function]? = some .finished
  awake : pool.running = 0 → .waiting ∉ pool.waiters
  length_eq : pool.workers.length = course.handed.length
  children (index : Nat) : course.children index = (course.deeds index).filterMap Deed.child?
  /-- Whatever becomes of the others, a function is on the way through its routine. -/
  underway {index : Nat} {origin : Option Nat} {routine : Routine ν} :
    course.handed[index]? = some (origin, routine) →
    ∃ phase, pool.workers[index]? = some phase ∧ routine.Underway (course.deeds index) phase
  finished {index : Nat} {origin : Option Nat} {routine : Routine ν} :
    course.handed[index]? = some (origin, routine) → pool.workers[index]? = some .finished →
    routine.Performs (course.deeds index)
  apart {doer index : Nat} {phase : Phase ν} {after : Workers σ ν} :
    pool.step recovery (.worker doer) = some after → doer ≠ index →
    pool.workers[index]? = some phase → after.workers[index]? = some phase
  told (index : Nat) :
    course.told index ++ pool.untold index = (course.causes index).map Panic.message
  once (index : Nat) : (course.causes index).length ≤ 1
  shared_eq : pool.shared = course.tellings.foldl
    (fun state telling => (recovery telling.cancelled telling.message state).state) shared

/-- However the steps of the functions are mixed, and even if the recovery breaks down itself. -/
theorem Workers.sheltered (run : Workers.Run recovery shared course pool) :
    Sheltered recovery shared course pool where
  waits_length := run.waits_length
  covered _ _ _ _ waits returned early descends :=
    run.covered waits returned (.inr rfl) _ _ early descends
  awake := run.awake
  length_eq := run.length_eq
  children := course.children_eq
  underway := run.underway
  finished handed ended := by
    obtain ⟨phase, found, underway⟩ := run.underway handed
    obtain rfl := Option.some.inj (found.symm.trans ended)
    exact underway.performs
  apart := step_apart
  told := run.told_untold
  once := run.causes_length
  shared_eq := run.shared_eq

/-- A function hands on one that hands on another, and breaks down while somebody waits. -/
def nestedEvents : List (Event Nat) :=
  [.go (.go (.sleep 5 (.go (.note 7 .finish) .finish)) (.panic ⟨some "kaboom"⟩)), .go .finish,
    .wait, .waiter 0, .worker 0, .worker 0, .worker 2, .worker 0, .worker 0, .worker 1, .tick 5,
    .worker 2, .worker 2, .worker 2, .worker 3, .worker 3, .waiter 0]

def collect : Recovery (List String) := fun _ message state => ⟨state ++ [message], none, none⟩

theorem sheltered_nested :
    ∃ course pool, Workers.Run collect [] course pool ∧ course.waits = [2] ∧
      pool.waiters = [.returned] ∧ course.Descends 0 3 ∧
      pool.workers[3]? = some (.finished : Phase Nat) ∧
      course.causes 0 = [⟨some "kaboom"⟩] ∧ course.told 0 = ["kaboom"] ∧
      pool.shared = ["kaboom"] := by
  have followed : follow (fun pool event => Workers.step pool collect event) (Workers.start [])
    nestedEvents = some _ := rfl
  have run := Trail.start.follow followed
  have sheltered := Workers.sheltered run
  refine ⟨_, _, run, rfl, rfl, .child (.child .self rfl) rfl, ?_, rfl, ?_, ?_⟩
  · exact sheltered.covered 0 rfl rfl Nat.zero_lt_two (.child (.child .self rfl) rfl)
  · exact (List.append_nil _).symm.trans (sheltered.told 0)
  · exact sheltered.shared_eq

end Worker

end TaskQueue
