import TaskQueue.Proofs.Consumer.Ledger
import TaskQueue.Proofs.Consumer.Passage

/-!
What becomes of a delivery when something breaks down, the recovery included. A breakdown of a
handler is caught twice: the recovery is told of it next to the handler, and if it breaks down
there, it is told of that once more at the edge of the task, where breakdowns before the handler are
caught as well. Only behind that edge does a breakdown of the recovery take the verdict with it.
-/

namespace TaskQueue.Consumer

variable {σ ν : Type} {setup : Setup σ} {drift : Drift σ} {system : State σ ν} {course : Course σ ν}

def Deed.unwinds : Deed σ ν → Bool
  | .broke _ | .recovered _ (some _) => true
  | _ => false

/-- The recovery broke down when it was told of a breakdown at the edge of the task. -/
def Forsaken (deeds : List (Deed σ ν)) : Prop :=
  ∃ deed message further, deed.unwinds = true ∧ [deed, .recovered message (some further)] <:+: deeds

section Passage

variable {delivery : Delivery} {queue : String} {cause : Panic} {answer : Answer}
  {start world last : World σ} {deeds : List (Deed σ ν)} {verdict : Option Verdict}

theorem forsaken_cons {first second : Deed σ ν} :
    Forsaken (first :: second :: deeds) ↔
      (first.unwinds = true ∧ ∃ message further, second = .recovered message (some further)) ∨
        Forsaken (second :: deeds) := by
  constructor
  · rintro ⟨deed, message, further, unwinds, part⟩
    rcases List.infix_cons_iff.mp part with here | later
    · obtain ⟨rfl, rest⟩ := List.cons_prefix_cons.mp here
      obtain ⟨rfl, _⟩ := List.cons_prefix_cons.mp rest
      exact .inl ⟨unwinds, message, further, rfl⟩
    · exact .inr ⟨deed, message, further, unwinds, later⟩
  · rintro (⟨unwinds, message, further, rfl⟩ | ⟨deed, message, further, unwinds, later⟩)
    · exact ⟨first, message, further, unwinds, (List.prefix_append _ deeds).isInfix⟩
    · exact ⟨deed, message, further, unwinds, List.infix_cons later⟩

theorem not_forsaken_singleton (deed : Deed σ ν) : ¬Forsaken [deed] := by
  rintro ⟨_, _, _, _, part⟩
  have short := part.length_le
  simp at short

theorem Caught.unaccepted (caught : Caught setup drift cause world deeds verdict last) :
    verdict ≠ some .ack ∧ ∀ moment answer, .answered moment answer ∉ deeds := by
  cases caught <;> simp

theorem Passage.rejects (passage : Passage setup drift delivery queue start deeds verdict last)
    (broken : deeds.any Deed.isBreakdown = true) : verdict ≠ some .ack := by
  cases passage with
  | refused _ _ | unhandled _ _ => simp [Deed.isBreakdown] at broken
  | broke _ caught => exact caught.unaccepted.1
  | invoked _ _ _ tended =>
      cases tended with
      | returned _ | overran _ => simp [Deed.isBreakdown] at broken
      | panicked _ => simp
      | unwound _ caught => exact caught.unaccepted.1

theorem Passage.broken_of_lost
    (passage : Passage setup drift delivery queue start deeds none last) :
    deeds.any Deed.isBreakdown = true := by
  cases passage with
  | broke _ _ => rfl
  | invoked _ _ _ tended =>
      cases tended with
      | unwound _ _ => simp [Deed.isBreakdown]

theorem Caught.forsaken_iff {first : Deed σ ν} (unwinds : first.unwinds = true)
    (caught : Caught setup drift cause world deeds verdict last) :
    Forsaken (first :: deeds) ↔ verdict = none := by
  cases caught with
  | seen _ => simp [forsaken_cons, not_forsaken_singleton]
  | lost _ _ => simp [forsaken_cons, unwinds]

theorem Passage.forsaken_iff
    (passage : Passage setup drift delivery queue start deeds verdict last) :
    Forsaken deeds ↔ verdict = none := by
  cases passage with
  | refused _ _ => simp [Forsaken]
  | unhandled _ _ => simp [not_forsaken_singleton]
  | broke _ caught => exact caught.forsaken_iff rfl
  | invoked _ _ _ tended =>
      cases tended with
      | returned _ | overran _ | panicked _ =>
          simp [forsaken_cons, not_forsaken_singleton, Deed.unwinds]
      | unwound _ caught =>
          rw [forsaken_cons, forsaken_cons, caught.forsaken_iff rfl]
          simp [Deed.unwinds]

theorem Tended.ack_iff (tended : Tended setup drift world answer deeds verdict last) :
    (verdict = some .ack ↔ answer = .returned (.ok ())) ∧
      ∀ moment answer, .answered moment answer ∉ deeds := by
  cases tended with
  | returned _ =>
      rename_i result _
      cases result <;> simp [Verdict.ofResult]
  | overran _ | panicked _ => simp
  | unwound _ caught => simpa using caught.unaccepted

theorem Passage.ack_iff (passage : Passage setup drift delivery queue start deeds verdict last) :
    verdict = some .ack ↔ ∃ moment, .answered moment (.returned (.ok ())) ∈ deeds := by
  cases passage with
  | refused _ _ | unhandled _ _ => simp
  | broke _ caught =>
      obtain ⟨notAck, unanswered⟩ := caught.unaccepted
      simp [notAck, unanswered]
  | invoked _ _ _ tended =>
      obtain ⟨ack, unanswered⟩ := tended.ack_iff
      simp [ack, unanswered, eq_comm]

end Passage

structure Contained (setup : Setup σ) (course : Course σ ν) (index : Nat) (task : Task σ ν) :
    Prop where
  once : (course.calls setup index).length ≤ 1
  /-- What broke down is rejected, and nothing is acked but what a handler accepted. -/
  called : ∀ call ∈ course.calls setup index, call.tag = task.delivery.tag ∧
    ((course.deeds setup index).any Deed.isBreakdown = true → call.termination = .reject false) ∧
    (call.termination = .ack false ↔
      ∃ moment, .answered moment (.returned (.ok ())) ∈ course.deeds setup index)
  /-- The call is missing only where the recovery broke down at the edge of the task. -/
  ended : task.phase.isFinished = true →
    ((course.calls setup index).length = 1 ↔ ¬Forsaken (course.deeds setup index))
  unbroken : task.phase.isFinished = true →
    (course.deeds setup index).any Deed.isBreakdown = false → (course.calls setup index).length = 1

/-- For any stages, any handlers and any recovery, on any channel and among whatever other tasks, a
delivery is ended at most once, and it is rejected if something broke down over it. It is not ended
at all exactly if the recovery, told of a breakdown that had not been caught next to the handler,
broke down itself; so a delivery over which nothing breaks down is always ended. -/
theorem Exposed.contained {registry : Registry (Handler σ ν)} {broker : Broker} {shared : σ}
    (exposed : Exposed setup (State.start setup registry broker shared) course system)
    {index : Nat} {task : Task σ ν} (found : system.tasks[index]? = some task) :
    Contained setup course index task := by
  obtain ⟨start, world, passing⟩ := exposed.passing rfl rfl found
  rcases passing.ends (fun _ => trivial) with
    ⟨told, verdict, result, passage, whole⟩ | ⟨more, verdict, last, passage, finished⟩
  · have once : course.calls setup index =
        [⟨task.delivery.tag, Verdict.termination verdict, result⟩] := by
      rw [Course.calls, whole, List.filterMap_append, passage.calls]
      rfl
    have verdictOnly {termination : Termination} {result : Except TransportError Unit} :
        Forsaken (told ++ [.called ⟨task.delivery.tag, termination, result⟩]) → Forsaken told := by
      rintro ⟨deed, message, further, unwinds, part⟩
      refine ⟨deed, message, further, unwinds, ?_⟩
      rcases List.infix_concat_iff.mp part with ending | inside
      · have lastOnes := ending.getLast (by simp)
        simp at lastOnes
      · exact inside
    refine ⟨by simp [once], ?called, ?ended, fun _ _ => by simp [once]⟩
    case called =>
      intro call taken
      rw [once, List.mem_singleton] at taken
      subst call
      have accepted := passage.ack_iff
      refine ⟨rfl, ?_, ?_⟩
      · intro broken
        have rejects := passage.rejects (by simpa [whole, Deed.isBreakdown] using broken)
        cases verdict with
        | ack => exact absurd rfl rejects
        | reject => rfl
      · rw [whole]
        cases verdict <;> simpa [Verdict.termination] using accepted
    case ended =>
      intro _
      simp only [once, List.length_singleton, true_iff]
      rw [whole]
      intro forsaken
      simpa using passage.forsaken_iff.mp (verdictOnly forsaken)
  · have never : course.calls setup index = [] := by
      have none := passage.calls
      rw [List.filterMap_append, List.append_eq_nil_iff] at none
      exact none.1
    refine ⟨by simp [never], by simp [never], ?_, ?_⟩
    · intro ends
      obtain ⟨rfl, rfl, rfl⟩ := finished ends
      rw [List.append_nil] at passage
      simp [never, passage.forsaken_iff]
    · intro ends unbroken
      obtain ⟨rfl, rfl, rfl⟩ := finished ends
      rw [List.append_nil] at passage
      rw [passage.broken_of_lost] at unbroken
      cases unbroken

def Recovery.fragile : Recovery Bool := fun _ message called =>
  ⟨true, some message, if called then none else some ⟨some "recovery"⟩⟩

def fragileSetup : Setup Bool := Setup.usual .default Recovery.fragile Transport.prompt

/-- A handler breaks down and the recovery after it, which is called again at the edge. -/
def fragileEvents : List (Event Bool Unit) := List.flatten [
  [.register "t" fun _ _ => .panic ⟨some "handler"⟩,
    .publish "q" (some "id") (Bytes.ofText "\x7b\"task_name\":\"t\"\x7d"), .subscribe "q",
    .caller 0],
  List.replicate 6 (.loop 0 true), List.replicate 13 (.task 0)]

theorem contained_fragile :
    ∃ (course : Course Bool Unit) (system : State Bool Unit) (task : Task Bool Unit) (call : Call),
      Exposed fragileSetup (State.start fragileSetup Registry.empty Broker.empty false) course
          system ∧
        system.tasks[0]? = some task ∧ task.phase.isFinished = true ∧
        course.calls fragileSetup 0 = [call] ∧ call.termination = .reject false := by
  have seen : ((State.start fragileSetup Registry.empty Broker.empty false).follow fragileSetup
      fragileEvents).any (fun led => led.2.tasks[0]?.any (fun task => task.phase.isFinished) &&
        ((led.1.deeds fragileSetup 0).any Deed.isBreakdown &&
          decide ((led.1.calls fragileSetup 0).length = 1))) = true := by
    decide +kernel
  obtain ⟨⟨course, system⟩, followed, checked⟩ := (Option.any_eq_true _ _).mp seen
  simp only [Bool.and_eq_true, decide_eq_true_eq] at checked
  obtain ⟨present, broken, once⟩ := checked
  obtain ⟨task, found, finished⟩ := (Option.any_eq_true _ _).mp present
  obtain ⟨call, calls⟩ := List.length_eq_one_iff.mp once
  have run := Run.start.follow followed
  rw [List.nil_append] at run
  have contained := Exposed.contained run.exposed found
  have called := contained.called call (calls ▸ List.mem_singleton_self call)
  exact ⟨course, system, task, call, run.exposed, found, finished, calls, called.2.1 broken⟩

def brittleSetup : Setup Unit :=
  { plainSetup with
    unpack := Unpacking.byTag
    recovery := fun _ message state => ⟨state, some message, some ⟨some "recovery"⟩⟩ }

def forsakenEvents : List (Event Unit Unit) := List.flatten [
  [.publish "q" (some "id") [byte '!'], .subscribe "q", .caller 0],
  List.replicate 6 (.loop 0 true), List.replicate 4 (.task 0)]

/-- A delivery over which the first stage breaks down, and then the recovery: its task ends without
any attempt to end the delivery. -/
theorem exists_forsaken :
    ∃ (course : Course Unit Unit) (system : State Unit Unit) (task : Task Unit Unit),
      Run brittleSetup (State.start brittleSetup Registry.empty Broker.empty ()) course system ∧
        system.tasks[0]? = some task ∧ task.phase.isFinished = true ∧
        (course.deeds brittleSetup 0).any Deed.isBreakdown = true ∧
        course.calls brittleSetup 0 = [] ∧ system.broker.log = [] ∧
        system.counts.rejected = 0 := by
  have seen : ((State.start brittleSetup Registry.empty Broker.empty ()).follow brittleSetup
      forsakenEvents).any (fun led => led.2.tasks[0]?.any (fun task => task.phase.isFinished) &&
        ((led.1.deeds brittleSetup 0).any Deed.isBreakdown &&
          ((led.1.calls brittleSetup 0).isEmpty && (led.2.broker.log.isEmpty &&
            decide (led.2.counts.rejected = 0))))) = true := by
    decide +kernel
  obtain ⟨⟨course, system⟩, followed, checked⟩ := (Option.any_eq_true _ _).mp seen
  simp only [Bool.and_eq_true, decide_eq_true_eq, List.isEmpty_iff] at checked
  obtain ⟨present, broken, uncalled, unlogged, rejected⟩ := checked
  obtain ⟨task, found, finished⟩ := (Option.any_eq_true _ _).mp present
  exact ⟨_, _, task, Run.start.follow followed, found, finished, broken, uncalled, unlogged,
    rejected⟩

end TaskQueue.Consumer
