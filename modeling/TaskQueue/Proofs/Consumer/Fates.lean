import Mathlib.Algebra.GroupWithZero.Nat
import TaskQueue.Proofs.Consumer.Ledger
import TaskQueue.Proofs.Consumer.Attempts
import TaskQueue.Proofs.Consumer.Labels
import TaskQueue.Proofs.Consumer.Passage
import TaskQueue.Proofs.Consumer.Permits

/-!
What becomes of a delivery does not depend on the schedule. If handlers come to ends of a kind that
the message, the queue and the parameter decide, then these also decide the fate of a delivery: how
it is ended and whether something breaks down over it. How loops and tasks take turns, how many
there are of them, and which objects they use again has no part in it, so two runs that process the
same deliveries end with the same log, up to the order, and the same counts.
-/

namespace TaskQueue.Consumer

variable {σ ν : Type} {setup : Setup σ} {first system before after : State σ ν}
  {course : Course σ ν} {event : Event σ ν}

inductive Answer.Kind
  | succeeded
  | failed
  | panicked
  | overran
deriving DecidableEq, Repr

def Answer.kind : Answer → Answer.Kind
  | .returned (.ok ()) => .succeeded
  | .returned (.error _) => .failed
  | .panicked _ => .panicked
  | .overran _ => .overran

def Answer.Kind.verdict : Answer.Kind → Verdict
  | .succeeded => .ack
  | .failed | .panicked | .overran => .reject

def Answer.Kind.recoveries : Answer.Kind → Nat
  | .panicked => 1
  | .succeeded | .failed | .overran => 0

/-- The handlers of a run came to ends of the kind that their context and parameter decide. -/
def Course.Steady (setup : Setup σ) (course : Course σ ν)
    (kind : Context → TaskParam → Answer.Kind) : Prop :=
  ∀ index invocation moment answer,
    [.invoked invocation, .answered moment answer] <:+: course.deeds setup index →
    answer.kind = kind invocation.context invocation.param

structure Fate where
  verdict : Verdict
  recoveries : Nat
deriving DecidableEq, Repr

/-- What is to become of a delivery of a queue. -/
def Setup.fate (setup : Setup σ) (registry : Registry (Handler σ ν))
    (kind : Context → TaskParam → Answer.Kind) (label : String × Delivery) : Fate :=
  match setup.prepare label.1 label.2 with
  | .failed _ => ⟨.reject, 0⟩
  | .panicked _ => ⟨.reject, 1⟩
  | .done (context, param) =>
      match registry.lookup param.taskName with
      | none => ⟨.reject, 0⟩
      | some _ => ⟨(kind context param).verdict, (kind context param).recoveries⟩

structure Setup.SameStages (left right : Setup σ) : Prop where
  unpack : left.unpack = right.unpack
  format : left.format = right.format
  validator : left.validator = right.validator

theorem Setup.SameStages.fate {left right : Setup σ} (same : left.SameStages right)
    (registry : Registry (Handler σ ν)) (kind : Context → TaskParam → Answer.Kind)
    (label : String × Delivery) :
    left.fate registry kind label = right.fate registry kind label := by
  unfold Setup.fate Setup.prepare
  rw [same.unpack, same.format, same.validator]

theorem Tended.of_returns {drift : Drift σ} {answer : Answer} {world last : World σ}
    {deeds : List (Deed σ ν)} {verdict : Option Verdict} (returns : setup.recovery.Returns)
    (tended : Tended setup drift world answer deeds verdict last) :
    verdict = some answer.kind.verdict ∧ deeds.countP Deed.isRecovery = answer.kind.recoveries := by
  cases tended with
  | returned _ =>
      rename_i result _
      cases result <;> exact ⟨rfl, rfl⟩
  | overran _ | panicked _ => exact ⟨rfl, rfl⟩
  | unwound recovers _ => cases recovers.none_of_returns returns

theorem Passage.fate {drift : Drift σ} {registry : Registry (Handler σ ν)}
    {kind : Context → TaskParam → Answer.Kind} {delivery : Delivery} {queue : String}
    {start last : World σ} {deeds : List (Deed σ ν)} {verdict : Option Verdict}
    (returns : setup.recovery.Returns)
    (found : ∀ invocation, .invoked invocation ∈ deeds →
      registry.lookup invocation.param.taskName = some invocation.handler)
    (missing : ∀ name, .unhandled name ∈ deeds → registry.lookup name = none)
    (steady : ∀ invocation moment answer,
      [.invoked invocation, .answered moment answer] <:+: deeds →
      answer.kind = kind invocation.context invocation.param)
    (passage : Passage setup drift delivery queue start deeds verdict last) :
    verdict = some (setup.fate registry kind (queue, delivery)).verdict ∧
      deeds.countP Deed.isRecovery = (setup.fate registry kind (queue, delivery)).recoveries := by
  unfold Setup.fate
  cases passage with
  | refused prepared _ =>
      rw [prepared]
      exact ⟨rfl, rfl⟩
  | broke prepared caught =>
      obtain ⟨rfl, rfl⟩ := caught.of_returns returns
      rw [prepared]
      exact ⟨rfl, rfl⟩
  | unhandled prepared _ =>
      simp only [prepared]
      rw [missing _ List.mem_cons_self]
      exact ⟨rfl, rfl⟩
  | invoked prepared allowed performs tended =>
      rename_i invocation moment answer middle more
      have same := steady invocation moment answer ⟨[], more, rfl⟩
      obtain ⟨isVerdict, recoveries⟩ := tended.of_returns returns
      simp only [prepared]
      rw [found invocation List.mem_cons_self, ← same]
      exact ⟨isVerdict, recoveries⟩

/-- No handler is registered or removed, and no failure of an ack or reject is arranged. -/
def Event.isQuiet : Event σ ν → Bool
  | .register _ _ | .unregister _ | .failTerminations _ => false
  | _ => true

theorem State.step_registry (quiet : event.isQuiet = true)
    (stepped : before.step setup event = some after) : after.registry = before.registry := by
  cases State.step_moved stepped with
  | task _ _ _ frame => exact frame.registry
  | loop _ _ _ _ _ frame => exact frame.registry
  | outside _ _ frame =>
      rw [frame.registry]
      cases event with
      | register _ _ | unregister _ => cases quiet
      | _ => rfl

/-- A run that leaves nothing to do, in which handlers come to ends of given kinds and nothing
interferes. -/
structure Processed (setup : Setup σ) (kind : Context → TaskParam → Answer.Kind) (broker : Broker)
    (course : Course σ ν) (system : State σ ν) : Prop where
  returns : setup.recovery.Returns
  made : broker.Made
  unlogged : broker.log = []
  unfailing : broker.failingTerminations = 0
  quiet : ∀ moment ∈ course, moment.2.isQuiet = true
  steady : course.Steady setup kind
  settled : system.Settled
  drained : system.broker.labelled = []

def Deed.recorded? : Deed σ ν → Option (UInt64 × Termination)
  | .called ⟨tag, termination, .ok ()⟩ => some (tag, termination)
  | _ => none

theorem Course.recorded_eq_doings (setup : Setup σ) (course : Course σ ν) :
    course.recorded setup =
      ((course.doings setup).map Prod.snd).filterMap Deed.recorded? := by
  unfold recorded doings gather
  rw [List.filterMap_map, List.filterMap_filterMap]
  congr 1
  funext happening
  cases happening with
  | task index deed =>
      cases deed with
      | called call =>
          obtain ⟨tag, termination, result⟩ := call
          cases result <;> rfl
      | _ => rfl
  | _ => rfl

theorem Course.length_recoveries_eq_doings (setup : Setup σ) (course : Course σ ν) :
    (course.recoveries setup).length =
      ((course.doings setup).map Prod.snd).countP Deed.isRecovery := by
  unfold recoveries doings gather
  rw [List.length_filterMap_eq_countP, List.countP_map, List.countP_filterMap]
  apply List.countP_congr
  intro happening _
  cases happening with
  | task index deed =>
      cases deed <;> simp [Happening.recoveredFor?, Happening.deed?, Deed.isRecovery]
  | _ => simp [Happening.recoveredFor?, Happening.deed?]

theorem Passage.unrecorded {drift : Drift σ} {delivery : Delivery} {queue : String}
    {start last : World σ} {deeds : List (Deed σ ν)} {verdict : Option Verdict}
    (passage : Passage setup drift delivery queue start deeds verdict last) :
    deeds.filterMap Deed.recorded? = [] := by
  have uncalled := passage.calls
  rw [List.filterMap_eq_nil_iff] at uncalled ⊢
  intro deed taken
  cases deed with
  | called call => simpa [Deed.call?] using uncalled _ taken
  | _ => rfl

/-- What a run comes to if it is decided by the fates of what was published. -/
structure Fated (fate : String × Delivery → Fate) (labels : List (String × Delivery))
    (system : State σ ν) : Prop where
  log : system.broker.log.Perm
    (labels.map fun label => (labelTag label, (fate label).verdict.termination))
  received : system.counts.received = labels.length
  ended : ∀ verdict : Verdict, system.counts.get verdict.counter =
    labels.countP fun label => (fate label).verdict = verdict
  recoveredPanics :
    system.counts.recoveredPanics = (labels.map fun label => (fate label).recoveries).sum

theorem Verdict.isAck_beq (left right : Verdict) :
    (left.termination.isAck == right.termination.isAck) = decide (left = right) := by
  cases left <;> cases right <;> rfl

namespace Processed

variable {registry : Registry (Handler σ ν)} {broker : Broker} {shared : σ}
  {kind : Context → TaskParam → Answer.Kind}
  (processed : Processed setup kind broker course system)
  (run : Run setup (State.start setup registry broker shared) course system)

include processed run

theorem accepted {index : Nat} {call : Call}
    (called : .called call ∈ course.deeds setup index) : call.result = .ok () := by
  obtain ⟨place, found⟩ := List.mem_iff_getElem?.mp (Course.mem_attempts called)
  have unarranged : ∀ moment ∈ course, ∀ count, moment.2 ≠ .failTerminations count := by
    rintro moment taken count arranged
    have quiet := processed.quiet moment taken
    rw [arranged] at quiet
    cases quiet
  refine ((run.attempts unarranged).2 place call found).mpr ?_
  exact processed.unfailing ▸ Nat.zero_le place

theorem task {index : Nat} {task : Task σ ν} (found : system.tasks[index]? = some task) :
    (course.deeds setup index).filterMap Deed.recorded? =
        [(labelTag task.label, (setup.fate registry kind task.label).verdict.termination)] ∧
      (course.deeds setup index).countP Deed.isRecovery =
        (setup.fate registry kind task.label).recoveries := by
  have same := (run.throughout (fun state => state.registry = registry) rfl
    (fun quiet same stepped => (State.step_registry quiet stepped).trans same) processed.quiet).2
  have fate {deeds : List (Deed σ ν)} {verdict : Option Verdict} {start last : World σ}
      (inside : deeds <:+: course.deeds setup index)
      (passage : Passage setup .free task.delivery task.queue start deeds verdict last) :
      verdict = some (setup.fate registry kind task.label).verdict ∧
        deeds.countP Deed.isRecovery = (setup.fate registry kind task.label).recoveries := by
    refine passage.fate processed.returns ?_ ?_ ?_
    · intro invocation invoked
      obtain ⟨step, taken, _, _, looked⟩ := lookedUp_of_invoked run (inside.subset invoked)
      rwa [same step taken] at looked
    · intro name unhandled
      obtain ⟨_, step, taken, _, _, looked⟩ := lookedUp_of_unhandled run (inside.subset unhandled)
      rwa [same step taken] at looked
    · intro invocation moment answer part
      exact processed.steady index invocation moment answer (part.trans inside)
  have finished := processed.settled.tasks task (List.mem_of_getElem? found)
  obtain ⟨start, world, passing⟩ := run.exposed.passing rfl rfl found
  rcases passing.ends (fun _ => trivial) with
    ⟨told, verdict, result, passage, whole⟩ | ⟨more, verdict, last, passage, ends⟩
  · obtain ⟨sameVerdict, recoveries⟩ := fate (whole ▸ ⟨[], _, rfl⟩) passage
    obtain rfl := Option.some.inj sameVerdict
    have called : .called ⟨task.delivery.tag, _, result⟩ ∈ course.deeds setup index :=
      whole ▸ List.mem_append_right _ (List.mem_singleton_self _)
    have accepted : result = .ok () := processed.accepted run called
    rw [whole, accepted, List.filterMap_append, passage.unrecorded, List.countP_append, recoveries]
    exact ⟨rfl, rfl⟩
  · obtain ⟨rfl, rfl, rfl⟩ := ends finished
    rw [List.append_nil] at passage
    cases (fate (List.infix_refl _) passage).1

theorem labels :
    (broker.labelled ++ course.published setup).Perm (system.tasks.map Task.label) := by
  have kept := (run.labelled processed.made.sound rfl rfl).kept
  have idle : system.loops.flatMap Loop.labels = [] := by
    refine List.flatMap_eq_nil_iff.mpr fun loop taken => ?_
    rw [Loop.labels, processed.settled.loops loop taken]
    rfl
  rwa [processed.drained, List.nil_append, State.carried, idle, List.nil_append] at kept

theorem counted (counter : Counter) (seen : counter ≠ .streamFailures) :
    system.counts.get counter = (course.gather Happening.counter? setup).count counter := by
  rw [← run.counted processed.returns rfl rfl rfl seen, processed.settled.due, List.count_nil,
    Nat.add_zero]

theorem recorded :
    (course.recorded setup).Perm ((broker.labelled ++ course.published setup).map fun label =>
      (labelTag label, (setup.fate registry kind label).verdict.termination)) := by
  have entries := map_range
    (fun index => (course.deeds setup index).filterMap Deed.recorded?)
    fun index task found => (processed.task run found).1
  rw [Course.recorded_eq_doings]
  refine ((run.doings_perm rfl).filterMap _).trans ?_
  rw [List.filterMap_flatMap, List.flatMap_def, entries, ← List.flatMap_def, ← List.map_eq_flatMap]
  have sameEntries := ((processed.labels run).map fun label =>
    (labelTag label, (setup.fate registry kind label).verdict.termination)).symm
  rwa [List.map_map] at sameEntries

theorem ended (verdict : Verdict) :
    system.counts.get verdict.counter =
      (broker.labelled ++ course.published setup).countP fun label =>
        (setup.fate registry kind label).verdict = verdict := by
  have seen : verdict.counter ≠ .streamFailures := by cases verdict <;> nofun
  rw [processed.counted run _ seen, ← Course.count_recorded, (processed.recorded run).countP_eq,
    List.countP_map]
  simp only [Function.comp_def, Verdict.isAck_beq]

theorem unrefused : system.counts.get .terminateFailures = 0 := by
  rw [processed.counted run .terminateFailures nofun, List.count_eq_zero]
  intro refused
  obtain ⟨moment, passed, happening, happened, picked⟩ := Course.mem_gather.mp refused
  cases happening with
  | task index deed =>
      have done : deed ∈ course.deeds setup index :=
        Course.mem_gather.mpr ⟨moment, passed, _, happened, by simp [Happening.deedOf?]⟩
      cases deed with
      | called call =>
          have outcome : call.outcome = .terminateFailures := Option.some.inj picked
          rw [Call.outcome, processed.accepted run done] at outcome
          cases accepts : call.termination.isAck <;> simp [accepts] at outcome
      | _ => simp [Happening.counter?] at picked
  | _ => simp [Happening.counter?] at picked

theorem fated :
    Fated (setup.fate registry kind) (broker.labelled ++ course.published setup) system := by
  refine ⟨?log, ?received, processed.ended run, ?recoveredPanics⟩
  case log =>
    have unlogged : (State.start setup registry broker shared).broker.log = [] := processed.unlogged
    rw [run.log, unlogged, List.nil_append]
    exact processed.recorded run
  case received =>
    have received := run.received_eq processed.returns rfl rfl rfl
    have acked := processed.ended run .ack
    have rejected := processed.ended run .reject
    have unrefused := processed.unrefused run
    have all := List.length_eq_countP_add_countP
      (l := broker.labelled ++ course.published setup) fun label =>
        decide ((setup.fate registry kind label).verdict = .ack)
    have other (verdict : Verdict) : (¬verdict = .ack) = (verdict = .reject) := by
      cases verdict <;> simp
    simp only [decide_eq_true_eq, other] at all
    rw [processed.settled.owed, Counts.settled] at received
    simp only [Counts.get, Verdict.counter] at acked rejected unrefused received
    omega
  case recoveredPanics =>
    have recoveries := map_range
      (fun index => (course.deeds setup index).countP Deed.isRecovery)
      fun index task found => (processed.task run found).2
    calc system.counts.recoveredPanics
        = ((course.doings setup).map Prod.snd).countP Deed.isRecovery := by
          rw [← Course.length_recoveries_eq_doings, Course.length_recoveries]
          exact processed.counted run .recoveredPanics (by decide)
      _ = (system.tasks.map fun task => (setup.fate registry kind task.label).recoveries).sum := by
          rw [(run.doings_perm rfl).countP_eq, List.countP_flatMap, ← recoveries]
          rfl
      _ = _ := by
          have sums := (processed.labels run).map fun label =>
            (setup.fate registry kind label).recoveries
          rw [sums.sum_nat, List.map_map]
          rfl

end Processed

/-- Whatever others do, each handler comes to an end of the kind that the context and the parameter
decide. -/
def Registry.Steady (config : ConsumerConfig) (registry : Registry (Handler σ ν))
    (kind : Context → TaskParam → Answer.Kind) : Prop :=
  ∀ context param handler world answer last,
    registry.lookup param.taskName = some handler → answer.Allowed config →
    Work.Performs .free (handler context param) world answer last →
    answer.kind = kind context param

theorem Tended.uninvoked {drift : Drift σ} {world last : World σ} {answer : Answer}
    {deeds : List (Deed σ ν)} {verdict : Option Verdict}
    (tended : Tended setup drift world answer deeds verdict last) (invocation : Invocation σ ν) :
    .invoked invocation ∉ deeds := by
  cases tended with
  | returned _ | overran _ | panicked _ => simp
  | unwound _ caught => cases caught <;> simp

theorem Passage.answered {drift : Drift σ} {delivery : Delivery} {queue : String}
    {start last : World σ} {deeds : List (Deed σ ν)} {verdict : Option Verdict}
    {invocation : Invocation σ ν} {moment : Nat} {answer : Answer}
    (passage : Passage setup drift delivery queue start deeds verdict last)
    (part : [.invoked invocation, .answered moment answer] <:+: deeds) :
    answer.Allowed setup.config ∧
      ∃ last, Work.Performs drift invocation.work start answer last := by
  have invoked := part.subset List.mem_cons_self
  cases passage with
  | refused _ _ | unhandled _ _ => simp at invoked
  | broke _ caught => cases caught <;> simp at invoked
  | invoked _ allowed performs tended =>
      have uninvoked := tended.uninvoked invocation
      rcases List.infix_cons_iff.mp part with atHead | later
      · obtain ⟨sameInvocation, rest⟩ := List.cons_prefix_cons.mp atHead
        cases sameInvocation
        cases (List.cons_prefix_cons.mp rest).1
        exact ⟨allowed, _, performs⟩
      · have among := later.subset List.mem_cons_self
        simp [uninvoked] at among

theorem Run.steady {registry : Registry (Handler σ ν)} {broker : Broker} {shared : σ}
    {kind : Context → TaskParam → Answer.Kind}
    (steady : Registry.Steady setup.config registry kind)
    (quiet : ∀ moment ∈ course, moment.2.isQuiet = true)
    (run : Run setup (State.start setup registry broker shared) course system) :
    course.Steady setup kind := by
  have same := (run.throughout (fun state => state.registry = registry) rfl
    (fun quiet same stepped => (State.step_registry quiet stepped).trans same) quiet).2
  intro index invocation moment answer part
  obtain ⟨step, taken, _, _, looked⟩ :=
    lookedUp_of_invoked run (part.subset List.mem_cons_self)
  rw [same step taken] at looked
  cases found : system.tasks[index]? with
  | none =>
      have beyond := List.getElem?_eq_none_iff.mp found
      rw [run.deeds_unknown rfl beyond] at part
      simp at part
  | some task =>
      obtain ⟨start, world, passing⟩ := run.exposed.passing rfl rfl found
      have answered : answer.Allowed setup.config ∧
          ∃ last, Work.Performs .free invocation.work start answer last := by
        rcases passing.ends (fun _ => trivial) with
          ⟨told, verdict, result, passage, whole⟩ | ⟨more, verdict, last, passage, _⟩
        · rw [whole] at part
          rcases List.infix_concat_iff.mp part with ending | inside
          · have lastOnes := ending.getLast (by simp)
            simp at lastOnes
          · exact passage.answered inside
        · exact passage.answered (part.trans (List.prefix_append _ more).isInfix)
      obtain ⟨allowed, last, performs⟩ := answered
      exact steady _ _ _ _ _ _ looked allowed performs

structure Agreed (left right : State σ ν) : Prop where
  log : left.broker.log.Perm right.broker.log
  /-- As long as no tag is given out again, there is one entry for a tag on both sides, the same. -/
  terminations : left.broker.published < UInt64.size →
    ∀ tag, left.broker.terminationsOf tag = right.broker.terminationsOf tag
  received : left.counts.received = right.counts.received
  acked : left.counts.acked = right.counts.acked
  rejected : left.counts.rejected = right.counts.rejected
  recoveredPanics : left.counts.recoveredPanics = right.counts.recoveredPanics

theorem Fated.agreed {fate : String × Delivery → Fate} {left right : State σ ν}
    {leftLabels rightLabels : List (String × Delivery)} (same : leftLabels.Perm rightLabels)
    (leftFated : Fated fate leftLabels left) (rightFated : Fated fate rightLabels right)
    (apart : left.broker.published < UInt64.size → (leftLabels.map labelTag).Nodup) :
    Agreed left right := by
  have log : left.broker.log.Perm right.broker.log :=
    leftFated.log.trans ((same.map _).trans rightFated.log.symm)
  have ended (verdict : Verdict) :
      left.counts.get verdict.counter = right.counts.get verdict.counter := by
    rw [leftFated.ended, rightFated.ended, same.countP_eq]
  refine ⟨log, ?terminations, ?received, ended .ack, ended .reject, ?recoveredPanics⟩
  case terminations =>
    intro few tag
    have entries : (left.broker.log.map Prod.fst).Perm (leftLabels.map labelTag) := by
      have tags := leftFated.log.map Prod.fst
      rwa [List.map_map] at tags
    have once := Broker.terminationsOf_le_one (entries.nodup_iff.mpr (apart few)) tag
    have both : (left.broker.terminationsOf tag).Perm (right.broker.terminationsOf tag) :=
      (log.filter _).map _
    generalize left.broker.terminationsOf tag = ends at once both
    match ends with
    | [] => exact both.nil_eq
    | [termination] => exact (List.perm_singleton.mp both.symm).symm
  case received => rw [leftFated.received, rightFated.received, same.length_eq]
  case recoveredPanics =>
    rw [leftFated.recoveredPanics, rightFated.recoveredPanics]
    exact (same.map _).sum_nat

/-- Two consumers with the same stages and handlers, each with a limit, a number of loops and a pool
of its own, have processed the same deliveries in whatever order and with whatever turns. If the
message, the queue and the parameter decide how a handler ends, every delivery has been ended in the
same way by both, and both have counted the same. -/
theorem Run.same_fates {leftSetup rightSetup : Setup σ} {registry : Registry (Handler σ ν)}
    {kind : Context → TaskParam → Answer.Kind} {leftBroker rightBroker : Broker}
    {leftShared rightShared : σ} {leftCourse rightCourse : Course σ ν} {left right : State σ ν}
    (stages : leftSetup.SameStages rightSetup)
    (leftProcessed : Processed leftSetup kind leftBroker leftCourse left)
    (rightProcessed : Processed rightSetup kind rightBroker rightCourse right)
    (published : (leftBroker.labelled ++ leftCourse.published leftSetup).Perm
      (rightBroker.labelled ++ rightCourse.published rightSetup))
    (leftRun : Run leftSetup (State.start leftSetup registry leftBroker leftShared) leftCourse left)
    (rightRun :
      Run rightSetup (State.start rightSetup registry rightBroker rightShared) rightCourse right) :
    Agreed left right := by
  have leftFated := leftProcessed.fated leftRun
  have rightFated := rightProcessed.fated rightRun
  rw [← funext (stages.fate registry kind)] at rightFated
  exact leftFated.agreed published rightFated fun few =>
    (leftRun.tagged leftProcessed.made few).apart

def mixedRegistry : Registry (Handler Unit Unit) :=
  let good := (Registry.empty.register "ok" fun _ _ => Work.succeed).2
  (good.register "bad" fun _ _ => .panic ⟨none⟩).2

def mixedKind (_ : Context) (param : TaskParam) : Answer.Kind :=
  if param.taskName = "bad" then .panicked else .succeeded

def mixedBroker : Broker :=
  let body (name : String) := Bytes.ofText ("\x7b\"task_name\":\"" ++ name ++ "\"\x7d")
  let first := (Broker.empty.publish "q" (some "a") (body "bad")).2
  (first.publish "q" (some "b") (body "ok")).2

theorem mixedRegistry_steady (config : ConsumerConfig) :
    Registry.Steady config mixedRegistry mixedKind := by
  intro context param handler world answer last found _ performs
  obtain ⟨finishes, panics⟩ := performs.ended
  simp only [mixedRegistry, Registry.lookup, Registry.register, Dictionary.get?_insert] at found
  by_cases bad : "bad" = param.taskName
  · rw [if_pos bad] at found
    obtain rfl := Option.some.inj found
    rw [panics _ rfl, mixedKind, if_pos bad.symm]
    rfl
  · rw [if_neg bad] at found
    split at found
    · obtain rfl := Option.some.inj found
      rw [finishes _ rfl, mixedKind, if_neg (Ne.symm bad)]
      rfl
    · simp [Registry.empty] at found

def singleEvents : List (Event Unit Unit) := List.flatten [
  [.subscribe "q", .caller 0], List.replicate 6 (.loop 0 true), List.replicate 12 (.task 0),
  List.replicate 4 (.loop 0 true), List.replicate 10 (.task 1)]

def crossedEvents : List (Event Unit Unit) := List.flatten [
  [.subscribe "q", .subscribe "q", .caller 0, .caller 1], List.replicate 6 (.loop 0 true),
  List.replicate 6 (.loop 1 true), (List.replicate 10 [.task 1, .task 0]).flatten,
  List.replicate 2 (.task 0)]

def isProcessed (setup : Setup Unit) (led : Course Unit Unit × State Unit Unit) : Bool :=
  led.1.all (fun moment => moment.2.isQuiet) && ((led.1.published setup).isEmpty &&
    (led.2.tasks.all (fun task => task.phase.isFinished) &&
      (led.2.loops.all (fun loop => loop.phase.held.isEmpty) && led.2.broker.labelled.isEmpty)))

theorem processed_mixed {setup : Setup Unit} {events : List (Event Unit Unit)}
    {course : Course Unit Unit} {system : State Unit Unit} (returns : setup.recovery.Returns)
    (followed : (State.start setup mixedRegistry mixedBroker ()).follow setup events =
      some (course, system)) (checked : isProcessed setup (course, system) = true) :
    Run setup (State.start setup mixedRegistry mixedBroker ()) course system ∧
      Processed setup mixedKind mixedBroker course system ∧ course.published setup = [] := by
  simp only [isProcessed, Bool.and_eq_true, List.all_eq_true, List.isEmpty_iff] at checked
  obtain ⟨quiet, unpublished, tasks, loops, drained⟩ := checked
  have run := Run.start.follow followed
  rw [List.nil_append] at run
  have made : mixedBroker.Made := .change (.change .empty (.publish _ _ _)) (.publish _ _ _)
  exact ⟨run, ⟨returns, made, rfl, rfl, quiet, run.steady (mixedRegistry_steady _) quiet,
    ⟨tasks, loops⟩, drained⟩, unpublished⟩

theorem same_fates_mixed :
    ∃ (leftCourse rightCourse : Course Unit Unit) (left right : State Unit Unit),
      Run serialSetup (State.start serialSetup mixedRegistry mixedBroker ()) leftCourse left ∧
        Run plainSetup (State.start plainSetup mixedRegistry mixedBroker ()) rightCourse right ∧
        Agreed left right ∧ left.broker.log ≠ right.broker.log ∧
        right.counts = ⟨2, 1, 1, 1, 0, 0⟩ := by
  have leftSeen : ((State.start serialSetup mixedRegistry mixedBroker ()).follow serialSetup
      singleEvents).any (fun led => isProcessed serialSetup led &&
        decide (led.2.broker.log = [(1, .reject false), (2, .ack false)])) = true := by
    decide +kernel
  have rightSeen : ((State.start plainSetup mixedRegistry mixedBroker ()).follow plainSetup
      crossedEvents).any (fun led => isProcessed plainSetup led &&
        (decide (led.2.broker.log = [(2, .ack false), (1, .reject false)]) &&
          decide (led.2.counts = ⟨2, 1, 1, 1, 0, 0⟩))) = true := by
    decide +kernel
  obtain ⟨⟨leftCourse, left⟩, leftFollowed, leftChecked⟩ := (Option.any_eq_true _ _).mp leftSeen
  obtain ⟨⟨rightCourse, right⟩, rightFollowed, rightChecked⟩ :=
    (Option.any_eq_true _ _).mp rightSeen
  simp only [Bool.and_eq_true, decide_eq_true_eq] at leftChecked rightChecked
  obtain ⟨leftDone, leftLog⟩ := leftChecked
  obtain ⟨rightDone, rightLog, rightCounts⟩ := rightChecked
  obtain ⟨leftRun, leftProcessed, leftPublished⟩ :=
    processed_mixed (fun _ _ _ => rfl) leftFollowed leftDone
  obtain ⟨rightRun, rightProcessed, rightPublished⟩ :=
    processed_mixed (fun _ _ _ => rfl) rightFollowed rightDone
  have published : (mixedBroker.labelled ++ Course.published serialSetup leftCourse).Perm
      (mixedBroker.labelled ++ Course.published plainSetup rightCourse) := by
    rw [leftPublished, rightPublished]
  have stages : serialSetup.SameStages plainSetup := ⟨rfl, rfl, rfl⟩
  have agreed := Run.same_fates stages leftProcessed rightProcessed published leftRun rightRun
  refine ⟨_, _, left, right, leftRun, rightRun, agreed, ?_, rightCounts⟩
  rw [leftLog, rightLog]
  decide

end TaskQueue.Consumer
