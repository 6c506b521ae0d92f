import Mathlib.Data.List.Chain
import TaskQueue.Proofs.Broker.Incarnations
import TaskQueue.Proofs.Consumer.Drain

/-!
What a consumer asks of its broker, and what others ask of it meanwhile. Each step comes to one
operation of the broker or to none, so that what is known of all sequences of operations is known of
every run. What a loop does next depends on what came of its operations.
-/

namespace TaskQueue

namespace Broker.Incident

def ofStream : Incident → Bool
  | .published _ _ _ | .closed _ _ => false
  | _ => true

end Broker.Incident

theorem Broker.yields_ofStream (past : List Incident) :
    yields (past.filter Incident.ofStream) = yields past := by
  unfold yields
  rw [List.filterMap_filter]
  apply List.filterMap_congr
  intro incident _
  cases incident <;> rfl

theorem Broker.Incident.ofStream_of_attempt {incident : Broker.Incident}
    (attempt : incident.isRefused = true ∨ incident.isOpened = true) :
    incident.ofStream = true := by
  cases incident with
  | published _ _ _ | closed _ _ => simp [isRefused, isOpened] at attempt
  | _ => rfl

theorem Broker.countP_ofStream {pick : Incident → Bool}
    (within : ∀ incident, pick incident = true → incident.ofStream = true) (past : List Incident) :
    (past.filter Incident.ofStream).countP pick = past.countP pick := by
  rw [List.countP_filter]
  apply List.countP_congr
  intro incident _
  rw [Bool.and_eq_true]
  exact ⟨And.left, fun picked => ⟨picked, within incident picked⟩⟩

namespace Consumer

variable {σ ν : Type} {setup : Setup σ} {first system before after : State σ ν}
  {course : Course σ ν} {event : Event σ ν} {index : Nat}

namespace State

def loopOperations (system : State σ ν) (setup : Setup σ) (index : Nat) (heed : Bool) :
    List Broker.Operation :=
  match system.loops[index]? with
  | some ⟨queue, .opening _⟩ =>
      if system.cancelled && heed then []
      else [.consume queue (setup.config.consumerTag queue) .none]
  | some ⟨_, .reading stream⟩ =>
      if system.cancelled && heed then [.drop stream] else [.next stream]
  | _ => []

/-- The operation of the broker that a step comes to, if there is one. -/
def operations (system : State σ ν) (setup : Setup σ) : Event σ ν → List Broker.Operation
  | .task index =>
      match system.deed? setup index with
      | some (.called call) => [.terminate call.tag call.termination]
      | _ => []
  | .loop index heed => system.loopOperations setup index heed
  | .publish queue messageId body => [.publish queue messageId body]
  | .publishTask ids queue param => [.publishTask ids queue param]
  | .closeQueue queue => [.closeQueue queue]
  | .failConsumes count => [.failConsumes count]
  | .failTerminations count => [.failTerminations count]
  | _ => []

def incidents (system : State σ ν) (setup : Setup σ) (event : Event σ ν) :
    List Broker.Incident :=
  system.broker.history (system.operations setup event)

end State

def Course.operations (setup : Setup σ) (course : Course σ ν) : List Broker.Operation :=
  course.flatMap fun moment => moment.1.operations setup moment.2

/-- How many steps of its own a loop is away from its next attempt to open a stream, if nothing else
keeps it from that. -/
def LoopPhase.toAttempt : LoopPhase → Option Nat
  | .pausing _ | .yielding => some 2
  | .top => some 1
  | .opening _ => some 0
  | _ => none

/-- A step of a loop on a queue with what it asks of the broker. -/
inductive LoopTurn (setup : Setup σ) (system : State σ ν) (queue : String) :
    LoopPhase → List Broker.Operation → LoopPhase → Prop
  | leave {phase : LoopPhase} {steps : Nat} : system.cancelled = true →
      phase.toAttempt = some steps → LoopTurn setup system queue phase [] .stopping
  | crash {cause : Panic} : system.cancelled = false →
      setup.transport.breakdown queue = some cause →
      LoopTurn setup system queue .top [] (.crashed cause)
  | begin : system.cancelled = false →
      LoopTurn setup system queue .top [] (.opening (system.now + setup.transport.delay))
  | opened {ready stream : Nat} :
      (system.broker.consume queue (setup.config.consumerTag queue) .none).1 = .ok stream →
      LoopTurn setup system queue (.opening ready)
        [.consume queue (setup.config.consumerTag queue) .none] (.reading stream)
  | refused {ready : Nat} {error : TransportError} :
      (system.broker.consume queue (setup.config.consumerTag queue) .none).1 = .error error →
      LoopTurn setup system queue (.opening ready)
        [.consume queue (setup.config.consumerTag queue) .none] (.paused setup system.now)
  | letGo {stream : Nat} : system.cancelled = true →
      LoopTurn setup system queue (.reading stream) [.drop stream] .top
  | pull {stream : Nat} {delivery : Delivery} :
      (system.broker.poll stream).1 = .next delivery →
      LoopTurn setup system queue (.reading stream) [.next stream] (.pulled stream delivery)
  | wait {stream : Nat} : (system.broker.poll stream).1 = .pending →
      LoopTurn setup system queue (.reading stream) [.next stream] (.reading stream)
  | ended {stream : Nat} : (system.broker.poll stream).1 = .ended →
      LoopTurn setup system queue (.reading stream) [.next stream]
        (if system.cancelled then .top else .paused setup system.now)
  | handOver {stream : Nat} {phase next : LoopPhase} : phase.stream? = some stream →
      next.stream? = some stream → LoopTurn setup system queue phase [] next
  | retry {phase : LoopPhase} : phase.toAttempt = some 2 → LoopTurn setup system queue phase [] .top
  | finish {phase : LoopPhase} : phase.isOver = true →
      LoopTurn setup system queue phase [] .finished

theorem unrefused_next (broker : Broker) (stream : Nat) :
    (broker.history [.next stream]).countP Broker.Incident.isRefused = 0 := by
  simp only [Broker.history, Broker.incidents, List.append_nil]
  split <;> rfl

structure Turned (setup : Setup σ) (system after : State σ ν) (index : Nat) (queue : String)
    (phase : LoopPhase) (operations : List Broker.Operation) (next : LoopPhase) : Prop where
  turn : LoopTurn setup system queue phase operations next
  loops : after.loops = system.loops.modify index fun loop => { loop with phase := next }
  broker : after.broker = system.broker.performAll operations
  failures : after.counts.streamFailures = system.counts.streamFailures +
    (system.broker.history operations).countP Broker.Incident.isRefused

/-- A move of a loop with the operation that it comes to. A stream failure is counted where an
attempt was refused. -/
theorem LoopMove.turn {heed : Bool} {queue : String} {phase next : LoopPhase}
    {pulled : Option Delivery} {broker : Broker}
    (move : LoopMove setup system heed queue phase pulled next broker)
    (found : system.loops[index]? = some ⟨queue, phase⟩) :
    LoopTurn setup system queue phase (system.loopOperations setup index heed) next ∧
      broker = system.broker.performAll (system.loopOperations setup index heed) ∧
      (system.broker.history (system.loopOperations setup index heed)).countP
          Broker.Incident.isRefused =
        if phase.counterTo? next = some .streamFailures then 1 else 0 := by
  simp only [State.loopOperations, found]
  cases move with
  | leaveTop cancelled => exact ⟨.leave cancelled rfl, rfl, rfl⟩
  | crash going broken => exact ⟨.crash going broken, rfl, rfl⟩
  | begin going _ => exact ⟨.begin going, rfl, rfl⟩
  | leaveOpening cancelled heeds =>
      simp only [cancelled, heeds, Bool.and_self, if_true]
      exact ⟨.leave cancelled rfl, rfl, rfl⟩
  | opened _ consumed unheeded =>
      have answer := congrArg Prod.fst consumed
      simp only [unheeded, Bool.false_eq_true, if_false]
      refine ⟨.opened answer, (congrArg Prod.snd consumed).symm, ?_⟩
      simp only [Broker.history, Broker.incidents, answer]
      rfl
  | openFailed _ consumed unheeded =>
      have answer := congrArg Prod.fst consumed
      simp only [unheeded, Bool.false_eq_true, if_false]
      refine ⟨.refused answer, (congrArg Prod.snd consumed).symm, ?_⟩
      rw [LoopPhase.paused_same (LoopPhase.counterTo? _) fun _ => rfl]
      simp only [Broker.history, Broker.incidents, answer]
      rfl
  | leaveStream cancelled heeds =>
      simp only [cancelled, heeds, Bool.and_self, if_true]
      refine ⟨.letGo cancelled, rfl, ?_⟩
      simp only [Broker.history, Broker.incidents]
      cases system.broker.source? _ <;> rfl
  | pull polled unheeded =>
      have answer := congrArg Prod.fst polled
      simp only [unheeded, Bool.false_eq_true, if_false]
      exact ⟨.pull answer, (congrArg Prod.snd polled).symm, unrefused_next _ _⟩
  | pending polled unheeded =>
      have answer := congrArg Prod.fst polled
      simp only [unheeded, Bool.false_eq_true, if_false]
      exact ⟨.wait answer, (congrArg Prod.snd polled).symm, unrefused_next _ _⟩
  | ended polled unheeded =>
      have answer := congrArg Prod.fst polled
      simp only [unheeded, Bool.false_eq_true, if_false]
      exact ⟨.ended answer, (congrArg Prod.snd polled).symm, unrefused_next _ _⟩
  | count | getPermit | getInLine | startTask => exact ⟨.handOver rfl rfl, rfl, rfl⟩
  | leavePause cancelled _ => exact ⟨.leave cancelled rfl, rfl, rfl⟩
  | retry _ => exact ⟨.retry rfl, rfl, rfl⟩
  | giveWay =>
      by_cases cancelled : system.cancelled = true
      · rw [if_pos cancelled]
        exact ⟨.leave cancelled rfl, rfl, rfl⟩
      · rw [if_neg cancelled]
        exact ⟨.retry rfl, rfl, rfl⟩
  | stop | recoverCrash => exact ⟨.finish rfl, rfl, rfl⟩

theorem State.stepLoop_turned {loop : Loop} {heed : Bool}
    (found : system.loops[index]? = some loop)
    (stepped : system.stepLoop setup index heed = some after) :
    ∃ next, Turned setup system after index loop.queue loop.phase
      (system.loopOperations setup index heed) next := by
  obtain ⟨pulled, next, step⟩ := stepLoop_step found stepped
  obtain ⟨turn, broker, refused⟩ := step.move.turn found
  refine ⟨next, turn, step.loops, broker, ?_⟩
  rw [refused]
  have counts := Counts.get_counted system.counts (loop.phase.counterTo? next) .streamFailures
  rwa [← (step.effect (stepLoop_permits found stepped)).counts] at counts

theorem TaskPhase.counter?_ne (phase : TaskPhase σ ν) : phase.counter? ≠ some .streamFailures := by
  cases phase with
  | settled verdict => cases verdict <;> simp [counter?, Verdict.counter]
  | _ => simp [counter?]

namespace State

theorem incidents_other (system : State σ ν) (setup : Setup σ)
    (notLoop : ∀ index heed, event ≠ .loop index heed) :
    (system.incidents setup event).filter Broker.Incident.ofStream = [] := by
  unfold incidents
  cases event with
  | loop index heed => exact absurd rfl (notLoop index heed)
  | task index =>
      simp only [operations]
      split <;> rfl
  | closeQueue queue =>
      simp only [operations, Broker.history, Broker.incidents]
      cases system.broker.queues.get? queue <;> rfl
  | _ => rfl

theorem step_broker (stepped : before.step setup event = some after) :
    after.broker = before.broker.performAll (before.operations setup event) := by
  cases step_stepped stepped with
  | @task doer task next found ran move moved frame effect =>
      rw [frame.broker]
      simp only [operations]
      cases before.deed? setup doer with
      | none => rfl
      | some deed => cases deed <;> rfl
  | loop found _ _ _ _ _ _ =>
      obtain ⟨_, _, _, broker, _⟩ := stepLoop_turned found stepped
      exact broker
  | outside notTask notLoop frame _ =>
      rw [frame.broker]
      cases event with
      | task index => exact absurd rfl (notTask index)
      | loop index heed => exact absurd rfl (notLoop index heed)
      | _ => rfl

theorem step_failures (stepped : before.step setup event = some after) :
    after.counts.streamFailures = before.counts.streamFailures +
      (before.incidents setup event).countP Broker.Incident.isRefused := by
  have unrefused : (∀ index heed, event ≠ .loop index heed) →
      (before.incidents setup event).countP Broker.Incident.isRefused = 0 := by
    intro notLoop
    have quiet := before.incidents_other setup notLoop
    rw [List.countP_eq_zero]
    intro incident taken refused
    refine (List.filter_eq_nil_iff.mp quiet) incident taken ?_
    cases incident <;> simp_all [Broker.Incident.isRefused, Broker.Incident.ofStream]
  cases step_stepped stepped with
  | @task doer task next found ran move moved frame effect =>
      have counts := Counts.get_counted before.counts task.phase.counter? .streamFailures
      rw [if_neg task.phase.counter?_ne, ← effect.counts] at counts
      rw [unrefused (by simp)]
      exact counts
  | loop found _ _ _ _ _ _ =>
      obtain ⟨_, _, _, _, failures⟩ := stepLoop_turned found stepped
      exact failures
  | outside _ notLoop _ effect =>
      rw [unrefused notLoop, effect.counts]
      rfl

end State

theorem Course.operations_append :
    (course ++ [(system, event)]).operations setup =
      course.operations setup ++ system.operations setup event := by
  simp [operations]

theorem Run.broker (run : Run setup first course system) :
    system.broker = first.broker.performAll (course.operations setup) := by
  induction run with
  | start => rfl
  | step run stepped ih =>
      rw [Course.operations_append, Broker.performAll_append, ← ih]
      exact State.step_broker stepped

theorem Run.history_parts {later : Course σ ν} (run : Run setup first course system) :
    first.broker.history ((course ++ later).operations setup) =
      first.broker.history (course.operations setup) ++
        system.broker.history (later.operations setup) := by
  rw [Course.operations, List.flatMap_append, Broker.history_append, run.broker]
  rfl

theorem Run.history_append (run : Run setup first course system) :
    first.broker.history ((course ++ [(system, event)]).operations setup) =
      first.broker.history (course.operations setup) ++ system.incidents setup event := by
  rw [run.history_parts, State.incidents]
  simp [Course.operations]

theorem Run.shifted (order : first.broker.InOrder) (run : Run setup first course system) :
    Broker.Shifted first.broker (first.broker.history (course.operations setup)) system.broker := by
  rw [run.broker]
  exact order.shifted_history _

theorem Run.failures (run : Run setup first course system) :
    system.counts.streamFailures = first.counts.streamFailures +
      (first.broker.history (course.operations setup)).countP Broker.Incident.isRefused := by
  induction run with
  | start => rfl
  | step run stepped ih =>
      rw [run.history_append, List.countP_append, State.step_failures stepped, ih, Nat.add_assoc]

end Consumer

end TaskQueue
