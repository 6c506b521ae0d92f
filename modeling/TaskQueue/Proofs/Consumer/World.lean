import TaskQueue.Proofs.Consumer.Effects

/-!
What a handler sees of the others: the state that handlers share, and whether the consumer is
cancelled. Between two steps of its work this may drift. How far is a parameter, so that one account
of a handler's work serves for a handler among others and for one that is alone.
-/

namespace TaskQueue.Consumer

variable {σ ν : Type} {setup : Setup σ}

/-- What may become of a world by what others do. -/
structure Drift (σ : Type) where
  allows : World σ → World σ → Prop
  refl : ∀ world, allows world world
  trans : ∀ {first second third}, allows first second → allows second third → allows first third

def Drift.free : Drift σ where
  allows _ _ := True
  refl _ := trivial
  trans _ _ := trivial

def Drift.still : Drift σ where
  allows world later :=
    later.shared = world.shared ∧ (world.cancelled = true → later.cancelled = true)
  refl _ := ⟨rfl, id⟩
  trans left right := ⟨right.1.trans left.1, right.2 ∘ left.2⟩

def Work.waits : Work σ ν → Bool
  | .sleep _ _ | .awaitCancel _ => true
  | _ => false

/-- Work that is begun in a world comes to this answer and leaves that world. Where it waits it may
run out of time. -/
inductive Work.Performs (drift : Drift σ) : Work σ ν → World σ → Answer → World σ → Prop
  | finish {world : World σ} {result : Except TaskError Unit} :
      Performs drift (.finish result) world (.returned result) world
  | panic {world : World σ} {cause : Panic} :
      Performs drift (.panic cause) world (.panicked cause) world
  | overrun {work : Work σ ν} {world : World σ} {limit : Duration} : Work.waits work = true →
      Performs drift work world (.overran limit) world
  | sleep {milliseconds : Nat} {next : Work σ ν} {world last : World σ} {answer : Answer} :
      Performs drift next world answer last →
      Performs drift (.sleep milliseconds next) world answer last
  | awaitCancel {next : Work σ ν} {world last : World σ} {answer : Answer} :
      world.cancelled = true → Performs drift next world answer last →
      Performs drift (.awaitCancel next) world answer last
  | cancel {next : Work σ ν} {world last : World σ} {answer : Answer} :
      Performs drift next world.cancel answer last →
      Performs drift (.cancel next) world answer last
  | look {next : Bool → Work σ ν} {world last : World σ} {answer : Answer} :
      Performs drift (next world.cancelled) world answer last →
      Performs drift (.look next) world answer last
  | access {change : σ → σ} {next : σ → Work σ ν} {world last : World σ} {answer : Answer} :
      Performs drift (next world.shared) { world with shared := change world.shared } answer last →
      Performs drift (.access change next) world answer last
  | note {left : ν} {next : Work σ ν} {world last : World σ} {answer : Answer} :
      Performs drift next world answer last → Performs drift (.note left next) world answer last
  | drifted {work : Work σ ν} {world middle last : World σ} {answer : Answer} :
      drift.allows world middle → Performs drift work middle answer last →
      Performs drift work world answer last

theorem Work.Performs.drift_last {drift : Drift σ} {work : Work σ ν} {world last later : World σ}
    {answer : Answer} (performs : Work.Performs drift work world answer last)
    (drifts : drift.allows last later) : Work.Performs drift work world answer later := by
  induction performs with
  | finish => exact .drifted drifts .finish
  | panic => exact .drifted drifts .panic
  | overrun waits => exact .drifted drifts (.overrun waits)
  | sleep _ ih => exact .sleep (ih drifts)
  | awaitCancel cancelled _ ih => exact .awaitCancel cancelled (ih drifts)
  | cancel _ ih => exact .cancel (ih drifts)
  | look _ ih => exact .look (ih drifts)
  | access _ ih => exact .access (ih drifts)
  | note _ ih => exact .note (ih drifts)
  | drifted before _ ih => exact .drifted before (ih drifts)

theorem Work.Performs.ended {drift : Drift σ} {work : Work σ ν} {world last : World σ}
    {answer : Answer} (performs : Work.Performs drift work world answer last) :
    (∀ result, work = .finish result → answer = .returned result) ∧
      ∀ cause, work = .panic cause → answer = .panicked cause := by
  induction performs with
  | finish => exact ⟨fun _ same => by cases same; rfl, nofun⟩
  | panic => exact ⟨nofun, fun _ same => by cases same; rfl⟩
  | overrun waits =>
      constructor <;> intro _ same <;> subst same <;> cases waits
  | drifted _ _ ih => exact ih
  | _ => exact ⟨nofun, nofun⟩

theorem Work.exists_performs {drift : Drift σ}
    (cancels : ∀ world : World σ, drift.allows world world.cancel) (work : Work σ ν)
    (world : World σ) :
    ∃ answer last, (∀ limit, answer ≠ Answer.overran limit) ∧
      Work.Performs drift work world answer last := by
  induction work generalizing world with
  | finish result => exact ⟨.returned result, world, fun _ => nofun, .finish⟩
  | panic cause => exact ⟨.panicked cause, world, fun _ => nofun, .panic⟩
  | sleep milliseconds next ih =>
      obtain ⟨answer, last, inTime, performs⟩ := ih world
      exact ⟨answer, last, inTime, .sleep performs⟩
  | awaitCancel next ih =>
      obtain ⟨answer, last, inTime, performs⟩ := ih world.cancel
      exact ⟨answer, last, inTime, .drifted (cancels world) (.awaitCancel rfl performs)⟩
  | cancel next ih =>
      obtain ⟨answer, last, inTime, performs⟩ := ih world.cancel
      exact ⟨answer, last, inTime, .cancel performs⟩
  | look next ih =>
      obtain ⟨answer, last, inTime, performs⟩ := ih world.cancelled world
      exact ⟨answer, last, inTime, .look performs⟩
  | access change next ih =>
      obtain ⟨answer, last, inTime, performs⟩ :=
        ih world.shared { world with shared := change world.shared }
      exact ⟨answer, last, inTime, .access performs⟩
  | note left next ih =>
      obtain ⟨answer, last, inTime, performs⟩ := ih world
      exact ⟨answer, last, inTime, .note performs⟩

def Work.Continues (drift : Drift σ) (work : Work σ ν) (world : World σ) (rest : Work σ ν)
    (later : World σ) : Prop :=
  ∀ answer last, Work.Performs drift rest later answer last →
    Work.Performs drift work world answer last

namespace Work.Continues

variable {drift : Drift σ} {work middle rest : Work σ ν} {world between later : World σ}

theorem trans (first : Work.Continues drift work world middle between)
    (second : Work.Continues drift middle between rest later) :
    Work.Continues drift work world rest later :=
  fun answer last performs => first answer last (second answer last performs)

theorem of_drift (drifts : drift.allows world later) :
    Work.Continues drift work world work later :=
  fun _ _ performs => .drifted drifts performs

theorem of_goes (goes : Work.Goes world work rest) (item : Item) (deadline : Option Deadline) :
    Work.Continues drift work world rest
      ((TaskPhase.running item work deadline).worldAfter setup world) := by
  intro answer last performs
  cases goes with
  | sleep next => exact .sleep performs
  | awaitCancel next cancelled => exact .awaitCancel cancelled performs
  | cancel next => exact .cancel performs
  | look next => exact .look performs
  | access change next => exact .access performs
  | note left next => exact .note performs

end Work.Continues

end TaskQueue.Consumer
