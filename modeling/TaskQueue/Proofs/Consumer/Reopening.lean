import TaskQueue.Proofs.Broker.Delivery
import TaskQueue.Proofs.Consumer.Ledger
import TaskQueue.Proofs.Consumer.Reconnection

/-!
A queue that is closed while the one loop of a consumer reads from it. What waited there is pulled
before the loop comes back to its top, and what is published to the name meanwhile waits for the
next stream.
-/

namespace TaskQueue.Consumer

open Broker (Incident)

variable {σ ν : Type} {setup : Setup σ} {first middle system before after : State σ ν}
  {course earlier later : Course σ ν} {event : Event σ ν} {loop known : Loop}

theorem State.pull_yields {index : Nat} (found : system.loops[index]? = some loop) (heed : Bool) :
    (system.pull? index heed).toList =
      (Broker.yields (system.incidents setup (.loop index heed))).map fun yielded =>
        (loop.queue, yielded.2) := by
  obtain ⟨queue, phase⟩ := loop
  simp only [pull?, incidents, operations, loopOperations, found]
  cases phase with
  | opening ready =>
      simp only
      split
      · rfl
      · simp only [Broker.history, Broker.incidents]
        split <;> rfl
  | reading stream =>
      simp only
      split
      · simp only [Broker.history, Broker.incidents]
        cases system.broker.source? stream <;> rfl
      · simp only [Broker.history, Broker.incidents, List.append_nil]
        cases stored : system.broker.streams[stream]? with
        | none =>
            have gone : ∀ index, system.broker.streams[stream]? ≠ some ⟨index, true⟩ := by
              simp [stored]
            rw [Broker.poll_gone gone]
            rfl
        | some known =>
            obtain ⟨index, live⟩ := known
            cases (system.broker.poll stream).1 with
            | next delivery => rfl
            | pending => rfl
            | ended => cases live <;> rfl
  | _ => rfl

theorem State.yields_other (system : State σ ν) (setup : Setup σ)
    (notLoop : ∀ index heed, event ≠ .loop index heed) :
    Broker.yields (system.incidents setup event) = [] := by
  rw [← Broker.yields_ofStream, system.incidents_other setup notLoop]
  rfl

theorem Run.pulled (run : Run setup first course system) :
    (system.loops = [] → course.pulledBy setup 0 = [] ∧
      Broker.yields (first.broker.history (course.operations setup)) = []) ∧
    ∀ loop, system.loops = [loop] → course.pulledBy setup 0 =
      (Broker.yields (first.broker.history (course.operations setup))).map fun yielded =>
        (loop.queue, yielded.2) := by
  induction run with
  | start => exact ⟨fun _ => ⟨rfl, rfl⟩, fun _ _ => rfl⟩
  | @step course before after event run stepped ih =>
      rw [run.history_append, Broker.yields_append]
      constructor
      · intro none
        obtain ⟨noneBefore, notLoop⟩ := State.no_loops stepped none
        rw [Course.pulledBy_else (notLoop 0), before.yields_other setup notLoop, List.append_nil]
        exact ih.1 noneBefore
      · intro loop single
        cases State.sole_step stepped single with
        | born notLoop noneBefore _ =>
            obtain ⟨nothing, unyielded⟩ := ih.1 noneBefore
            rw [Course.pulledBy_else (notLoop 0), before.yields_other setup notLoop, nothing,
              unyielded]
            rfl
        | @turn heed phase isLoop known turn =>
            subst isLoop
            have found : before.loops[0]? = some ⟨loop.queue, phase⟩ := by rw [known]; rfl
            rw [Course.pulledBy_loop, ih.2 _ known, State.pull_yields found, List.map_append]
        | @other known notLoop isKnown same =>
            rw [Course.pulledBy_else (notLoop 0), before.yields_other setup notLoop,
              List.append_nil, Loop.queue_same same]
            exact ih.2 known isKnown

theorem State.incidents_loop (system : State σ ν) (setup : Setup σ) (index : Nat) (heed : Bool) :
    ∀ incident ∈ system.incidents setup (.loop index heed), incident.ofStream = true := by
  intro incident taken
  simp only [incidents, operations, loopOperations] at taken
  split at taken
  · split at taken
    · simp [Broker.history] at taken
    · simp only [Broker.history, Broker.incidents, List.append_nil] at taken
      split at taken <;> rw [List.mem_singleton.mp taken] <;> rfl
  · split at taken
    · simp only [Broker.history, Broker.incidents, List.append_nil, List.mem_map] at taken
      obtain ⟨_, _, rfl⟩ := taken
      rfl
    · simp only [Broker.history, Broker.incidents, List.append_nil] at taken
      split at taken
      · rw [List.mem_singleton.mp taken]
        rfl
      · rw [List.mem_singleton.mp taken]
        rfl
      · simp at taken
  · simp [Broker.history] at taken

theorem State.published_incidents (system : State σ ν) (setup : Setup σ) (event : Event σ ν)
    (queue : String) :
    ((system.happening? setup event).bind (Happening.publishedTo? queue)).toList =
      (system.incidents setup event).filterMap (Incident.publishedTo? queue) := by
  cases event with
  | publish name messageId body | publishTask ids name param =>
      simp only [happening?, incidents, operations, Broker.history, Broker.incidents,
        Option.bind_some, Happening.publishedTo?, List.append_nil, List.filterMap_cons,
        Incident.publishedTo?]
      split <;> rfl
  | closeQueue name =>
      simp only [happening?, incidents, operations, Broker.history, Broker.incidents]
      cases system.broker.queues.get? name <;> rfl
  | task index =>
      simp only [happening?, incidents, operations]
      cases system.deed? setup index with
      | none => rfl
      | some deed => cases deed <;> rfl
  | loop index heed =>
      have quiet : (system.incidents setup (.loop index heed)).filterMap
          (Incident.publishedTo? queue) = [] := by
        rw [List.filterMap_eq_nil_iff]
        intro incident taken
        have ofStream := system.incidents_loop setup index heed incident taken
        cases incident with
        | published _ _ _ => simp [Incident.ofStream] at ofStream
        | _ => rfl
      rw [quiet]
      cases pulled : system.pull? index heed <;> simp [happening?, pulled, Happening.publishedTo?]
  | _ => rfl

theorem Run.publishedTo_history (run : Run setup first course system) (queue : String) :
    course.publishedTo setup queue =
      (first.broker.history (course.operations setup)).filterMap
        (Incident.publishedTo? queue) := by
  induction run with
  | start => rfl
  | @step course before after event run stepped ih =>
      rw [run.history_append, List.filterMap_append, ← State.published_incidents]
      exact (Course.gather_append _).trans (congrArg (· ++ _) ih)

theorem State.received_other (stepped : before.step setup event = some after)
    (notLoop : ∀ index heed, event ≠ .loop index heed) :
    after.counts.get .received = before.counts.get .received := by
  cases step_stepped stepped with
  | task _ _ _ _ _ effect =>
      rw [effect.counts, Counts.count_counted, TaskPhase.count_received]
      rfl
  | loop => exact absurd rfl (notLoop _ _)
  | outside _ _ _ effect => rw [effect.counts]

theorem Run.received (unseen : first.counts.get .received = 0) (noLoops : first.loops = [])
    (run : Run setup first course system) :
    (system.loops = [] → system.counts.get .received = 0) ∧
    ∀ loop, system.loops = [loop] →
      system.counts.get .received + loop.phase.counter?.toList.count .received =
        (course.pulledBy setup 0).length := by
  induction run with
  | start =>
      refine ⟨fun _ => unseen, ?_⟩
      intro loop single
      rw [noLoops] at single
      simp at single
  | @step course before after event run stepped ih =>
      constructor
      · intro none
        obtain ⟨noneBefore, notLoop⟩ := State.no_loops stepped none
        rw [State.received_other stepped notLoop]
        exact ih.1 noneBefore
      · intro loop single
        cases State.sole_step stepped single with
        | born notLoop noneBefore isTop =>
            rw [State.received_other stepped notLoop, ih.1 noneBefore, isTop,
              Course.pulledBy_else (notLoop 0), (run.pulled.1 noneBefore).1]
            rfl
        | @turn heed phase isLoop known turn =>
            subst isLoop
            rw [Course.pulledBy_loop, List.length_append, ← ih.2 _ known]
            cases State.step_stepped stepped with
            | @loop _ _ mover pulled next found pull move moved born frame effect =>
                rw [known] at found moved
                obtain rfl := Option.some.inj found
                rw [single] at moved
                have isNext : loop.phase = next := congrArg Loop.phase (List.cons.inj moved).1
                have received : after.counts.get .received =
                    before.counts.get .received + phase.counter?.toList.count .received :=
                  effect.get_counts (by simp)
                rw [received, pull, isNext, ← move.counter]
                cases pulled <;> simp
            | outside _ notLoop _ _ => exact absurd rfl (notLoop 0 heed)
        | @other known notLoop isKnown same =>
            rw [State.received_other stepped notLoop, Course.pulledBy_else (notLoop 0),
              Loop.phase_same same LoopPhase.counter? fun _ _ => rfl]
            exact ih.2 known isKnown

/-- Where the loop is while it reads an incarnation to its end. -/
inductive Draining (index : Nat) (system : State σ ν) (phase : LoopPhase) : Prop
  | reading {stream : Nat} : phase.stream? = some stream →
      system.broker.streams[stream]? = some ⟨index, true⟩ → Draining index system phase
  | drained : phase.stream? = none → phase.toAttempt ≠ some 0 →
      system.broker.waitingAt index = [] → Draining index system phase

section Draining

variable {index : Nat}

theorem Draining.of_stream {phase : LoopPhase} {stream : Nat}
    (draining : Draining index system phase) (holds : phase.stream? = some stream) :
    system.broker.streams[stream]? = some ⟨index, true⟩ := by
  cases draining with
  | reading holdsToo live =>
      obtain rfl := Option.some.inj (holds.symm.trans holdsToo)
      exact live
  | drained without _ _ => rw [holds] at without; simp at without

theorem Draining.of_none {phase : LoopPhase} (draining : Draining index system phase)
    (without : phase.stream? = none) :
    phase.toAttempt ≠ some 0 ∧ system.broker.waitingAt index = [] := by
  cases draining with
  | reading holds _ => rw [without] at holds; simp at holds
  | drained _ away nothing => exact ⟨away, nothing⟩

theorem Draining.idle {phase next : LoopPhase} (draining : Draining index before phase)
    (without : phase.stream? = none) (withoutToo : next.stream? = none)
    (away : next.toAttempt ≠ some 0) (broker : after.broker = before.broker) :
    Draining index after next := by
  refine .drained withoutToo away ?_
  rw [broker]
  exact (draining.of_none without).2

theorem Draining.turn {queue : String} {phase next : LoopPhase}
    {operations : List Broker.Operation} (draining : Draining index before phase)
    (turn : LoopTurn setup before queue phase operations next) (order : before.broker.InOrder)
    (closed : before.broker.Closed index) (notTop : phase ≠ .top)
    (going : phase.stream?.isSome = true → before.cancelled = false)
    (broker : after.broker = before.broker.performAll operations) :
    Draining index after next ∧
      ∀ yielded ∈ Broker.yields (before.broker.history operations), yielded.1 = index := by
  have shifted := order.shifted_history operations
  rw [← broker] at shifted
  have left := shifted.waitingAt_closed order closed
  have unyielded : ∀ yielded ∈ Broker.yields (before.broker.history []), yielded.1 = index := by
    simp [Broker.history, Broker.yields]
  cases turn with
  | leave _ away =>
      have without := LoopPhase.without_stream (.inl (Option.isSome_of_eq_some away))
      exact ⟨draining.idle without rfl (by simp [LoopPhase.toAttempt]) broker, unyielded⟩
  | crash _ _ | begin _ => exact absurd rfl notTop
  | opened _ | refused _ => exact absurd rfl (draining.of_none rfl).1
  | letGo cancelled =>
      rw [going rfl] at cancelled
      simp at cancelled
  | @pull stream delivery polled =>
      have live := draining.of_stream rfl
      rw [Broker.history_next_brings live polled] at shifted ⊢
      refine ⟨.reading rfl (shifted.live live (by simp) (by simp)), ?_⟩
      intro yielded taken
      rw [List.mem_singleton.mp taken]
  | @wait stream polled =>
      have live := draining.of_stream rfl
      rw [Broker.history_next_pending live polled] at shifted ⊢
      exact ⟨.reading rfl (shifted.live live (by simp) (by simp)), by simp [Broker.yields]⟩
  | @ended stream polled =>
      have live := draining.of_stream rfl
      rw [order.nothing_of_ended live polled] at left
      refine ⟨.drained ?_ ?_ (List.append_eq_nil_iff.mp left.symm).2, ?_⟩
      · split
        · rfl
        · rw [LoopPhase.paused_same LoopPhase.stream? fun _ => rfl]
          rfl
      · split
        · simp [LoopPhase.toAttempt]
        · rw [LoopPhase.paused_same LoopPhase.toAttempt fun _ => rfl]
          simp [LoopPhase.toAttempt]
      · rw [Broker.history_next_ended live polled]
        simp [Broker.yields, Broker.Incident.yield?]
  | handOver holds holdsToo =>
      have live := draining.of_stream holds
      have stays := shifted.live live (by simp [Broker.history]) (by simp [Broker.history])
      exact ⟨.reading holdsToo stays, unyielded⟩
  | retry away =>
      have without := LoopPhase.without_stream (.inl (Option.isSome_of_eq_some away))
      exact ⟨draining.idle without rfl (by simp [LoopPhase.toAttempt]) broker, unyielded⟩
  | finish leaves =>
      have without := LoopPhase.without_stream (.inr leaves)
      exact ⟨draining.idle without rfl (by simp [LoopPhase.toAttempt]) broker, unyielded⟩

theorem Draining.other {known : Loop} (draining : Draining index before known.phase)
    (same : loop = known ∨ loop = known.grant) (order : before.broker.InOrder)
    (closed : before.broker.Closed index)
    (broker : after.broker = before.broker.performAll (before.operations setup event))
    (quiet : (before.incidents setup event).filter Incident.ofStream = []) :
    Draining index after loop.phase := by
  have shifted := order.shifted_history (before.operations setup event)
  rw [← broker] at shifted
  have silent := fun incident taken => List.filter_eq_nil_iff.mp quiet incident taken
  cases draining with
  | reading holds live =>
      refine .reading ((Loop.phase_same same LoopPhase.stream? fun _ _ => rfl).trans holds) ?_
      exact shifted.live live (fun ended => silent _ ended rfl) fun dropped => silent _ dropped rfl
  | drained without away nothing =>
      have left := shifted.waitingAt_closed order closed
      rw [nothing] at left
      refine .drained ?_ ?_ (List.append_eq_nil_iff.mp left.symm).2
      · rw [Loop.phase_same same LoopPhase.stream? fun _ _ => rfl]
        exact without
      · rw [Loop.phase_same same LoopPhase.toAttempt fun _ _ => rfl]
        exact away

/-- A loop that has a stream of a closed incarnation reads that to its end, and from nothing else,
before it is at its top again. -/
theorem Run.draining {stream : Nat} (order : first.broker.InOrder)
    (closed : first.broker.Closed index) (present : first.loops = [known])
    (holds : known.phase.stream? = some stream)
    (live : first.broker.streams[stream]? = some ⟨index, true⟩)
    (going : ∀ moment ∈ course, ∀ loop ∈ moment.1.loops,
      loop.phase.stream?.isSome = true → moment.1.cancelled = false)
    (underway : ∀ moment ∈ course, ∀ loop ∈ moment.1.loops, loop.phase ≠ .top)
    (run : Run setup first course system) (single : system.loops = [loop]) :
    Draining index system loop.phase ∧
      ∀ yielded ∈ Broker.yields (first.broker.history (course.operations setup)),
        yielded.1 = index := by
  induction run generalizing loop with
  | start =>
      obtain rfl := (List.cons.inj (present.symm.trans single)).1
      exact ⟨.reading holds live, by simp [Course.operations, Broker.history, Broker.yields]⟩
  | @step course before after event run stepped ih =>
      have shifted := run.shifted order
      have orderBefore := shifted.inOrder order
      have closedBefore := (shifted.closed order closed).1
      have goingBefore := fun moment taken => going moment (List.mem_append_left _ taken)
      have underwayBefore := fun moment taken => underway moment (List.mem_append_left _ taken)
      have last : (before, event) ∈ course ++ [(before, event)] :=
        List.mem_append_right _ List.mem_cons_self
      rw [run.history_append, Broker.yields_append]
      cases State.sole_step stepped single with
      | born _ noneBefore _ =>
          rw [run.loops_stay noneBefore] at present
          simp at present
      | @turn heed phase isLoop isKnown turn =>
          have taken : ⟨loop.queue, phase⟩ ∈ before.loops := by simp [isKnown]
          obtain ⟨draining, yielded⟩ := ih goingBefore underwayBefore isKnown
          obtain ⟨drainingAfter, yieldedNow⟩ := draining.turn turn orderBefore closedBefore
            (underway _ last _ taken) (going _ last _ taken) (State.step_broker stepped)
          refine ⟨drainingAfter, ?_⟩
          intro value known
          rcases List.mem_append.mp known with old | new
          · exact yielded value old
          · exact yieldedNow value new
      | other notLoop isKnown same =>
          obtain ⟨draining, yielded⟩ := ih goingBefore underwayBefore isKnown
          rw [before.yields_other setup notLoop, List.append_nil]
          exact ⟨draining.other same orderBefore closedBefore (State.step_broker stepped)
            (before.incidents_other setup notLoop), yielded⟩

end Draining

theorem State.closed_incidents {place : Nat} {queue : String}
    (closed : .closed place queue ∈ system.incidents setup event) :
    event = .closeQueue queue := by
  cases event with
  | loop index heed =>
      have ofStream := system.incidents_loop setup index heed _ closed
      simp [Incident.ofStream] at ofStream
  | closeQueue name =>
      simp only [incidents, operations, Broker.history, Broker.incidents, List.append_nil,
        List.mem_map] at closed
      obtain ⟨_, _, same⟩ := closed
      rw [(Incident.closed.inj same).2]
  | task index =>
      simp only [incidents, operations] at closed
      split at closed <;> simp [Broker.history, Broker.incidents] at closed
  | _ => simp [incidents, operations, Broker.history, Broker.incidents] at closed

theorem Run.unclosed {queue : String} (unclosed : ∀ moment ∈ course, moment.2 ≠ .closeQueue queue)
    (run : Run setup first course system) (place : Nat) :
    .closed place queue ∉ first.broker.history (course.operations setup) := by
  induction run with
  | start => simp [Course.operations, Broker.history]
  | @step course before after event run stepped ih =>
      rw [run.history_append, List.mem_append, not_or]
      refine ⟨ih fun moment taken => unclosed moment (List.mem_append_left _ taken), ?_⟩
      intro closed
      exact unclosed _ (List.mem_append_right _ List.mem_cons_self) (State.closed_incidents closed)

/-- What is published to a queue while it is open arrives at its incarnation, in the same order. -/
theorem Run.published_arrives {index : Nat} {queue : String} {oldest recent : Course σ ν}
    (orderFirst : first.broker.InOrder) (run : Run setup first (oldest ++ recent) before)
    (current : before.broker.queues.get? queue = some index)
    (unclosed : ∀ moment ∈ recent, moment.2 ≠ .closeQueue queue) (later : Course σ ν) :
    ((recent.publishedTo setup queue).map (queue, ·)).Sublist
      ((Broker.picked index (Broker.arrivals (first.broker.history
        (Course.operations setup (oldest ++ recent ++ later))))).map (queue, ·)) := by
  obtain ⟨beginning, old, renewed⟩ : ∃ beginning, Run setup first oldest beginning ∧
      Run setup beginning recent before := run.parts
  have orderBeginning := (old.shifted orderFirst).inOrder orderFirst
  have published := (renewed.shifted orderBeginning).publishedTo orderBeginning current
    (renewed.unclosed unclosed)
  have within : (Broker.picked index (Broker.arrivals
      (beginning.broker.history (recent.operations setup)))).Sublist
        (Broker.picked index (Broker.arrivals (first.broker.history
          (Course.operations setup (oldest ++ recent ++ later))))) := by
    rw [List.append_assoc, old.history_parts, renewed.history_parts, Broker.arrivals_append,
      Broker.arrivals_append, Broker.picked_append, Broker.picked_append]
    exact (List.sublist_append_left _ _).trans (List.sublist_append_right _ _)
  rw [renewed.publishedTo_history, published]
  exact within.map (queue, ·)

/-- The loop reads from a queue when it is closed, and what follows is left to run until the loop
has come to the end of its stream. -/
structure Interrupted (before : State σ ν) (later : Course σ ν) (queue : String) (index : Nat) :
    Prop where
  current : before.broker.queues.get? queue = some index
  streaming : ∃ known stream, before.loops = [known] ∧ known.phase.stream? = some stream ∧
    before.broker.streams[stream]? = some ⟨index, true⟩
  going : ∀ moment ∈ later, ∀ loop ∈ moment.1.loops,
    loop.phase.stream?.isSome = true → moment.1.cancelled = false
  unclosed : ∀ moment ∈ later, moment.2 ≠ .closeQueue queue
  underway : ∀ moment ∈ later, ∀ loop ∈ moment.1.loops, loop.phase ≠ .top

/-- What has become of the messages of a queue that was closed, and of those that came after. -/
structure Kept (setup : Setup σ) (earlier : Course σ ν) (before : State σ ν)
    (later : Course σ ν) (system : State σ ν) (queue : String) (index : Nat) : Prop where
  pulled : later.pulledBy setup 0 = (before.broker.waitingAt index).map (queue, ·)
  once : Broker.picked index (Broker.yields
      (Course.strand setup (earlier ++ (before, .closeQueue queue) :: later))) =
    Broker.picked index (Broker.arrivals (Broker.empty.history
      (Course.operations setup (earlier ++ (before, .closeQueue queue) :: later))))
  complete : ∀ oldest recent, earlier = oldest ++ recent →
    (∀ moment ∈ recent, moment.2 ≠ .closeQueue queue) →
      ((recent.publishedTo setup queue).map (queue, ·)).Sublist
        (Course.pulledBy setup (earlier ++ (before, .closeQueue queue) :: later) 0)
  waiting : later.publishedTo setup queue = system.broker.waitingIn queue

theorem Run.kept {index : Nat} (noBroker : first.broker = .empty)
    (interrupted : Interrupted before later loop.queue index) (single : system.loops = [loop])
    (isTop : loop.phase = .top)
    (run : Run setup first (earlier ++ (before, .closeQueue loop.queue) :: later) system) :
    Kept setup earlier before later system loop.queue index := by
  obtain ⟨known, stream, present, holds, live⟩ := interrupted.streaming
  obtain ⟨middle, sooner, rest⟩ : ∃ middle, Run setup first earlier middle ∧
      Run setup middle ((before, .closeQueue loop.queue) :: later) system := run.parts
  obtain ⟨rfl, after, stepped, following⟩ : before = middle ∧ ∃ after,
      before.step setup (.closeQueue loop.queue) = some after ∧ Run setup after later system :=
    rest.head
  have broker : after.broker = before.broker.closeQueue loop.queue := State.step_broker stepped
  have presentAfter : after.loops = [known] := by
    obtain rfl := Option.some.inj stepped
    exact present
  have orderFirst : first.broker.InOrder := noBroker ▸ .empty
  have order := (sooner.shifted orderFirst).inOrder orderFirst
  have closing := before.broker.shifted_closeQueue loop.queue
  have closed := order.closed_closeQueue (order.sound _ _ interrupted.current)
  have orderAfter := closing.inOrder order
  have liveAfter := closing.live live (by simp [Broker.incidents]) (by simp [Broker.incidents])
  rw [← broker] at closed orderAfter liveAfter
  obtain ⟨draining, yielded⟩ := following.draining orderAfter closed presentAfter holds liveAfter
    interrupted.going interrupted.underway single
  have nothing : system.broker.waitingAt index = [] := (draining.of_none (by rw [isTop]; rfl)).2
  have shifted := following.shifted orderAfter
  have empty : first.broker.waitingAt index = [] := by rw [noBroker]; rfl
  have account := (run.shifted orderFirst).flow orderFirst index
  rw [empty, nothing, List.nil_append, List.append_nil] at account
  refine ⟨?pulled, ?once, ?complete, ?waiting⟩
  case pulled =>
    have left := shifted.waitingAt_closed orderAfter closed
    rw [nothing, List.append_nil, Broker.picked_all yielded] at left
    rw [following.pulled.2 loop single, ← before.broker.waitingAt_closeQueue loop.queue, ← broker,
      left, List.map_map]
    rfl
  case once =>
    rw [Course.strand, Broker.yields_ofStream, ← noBroker]
    exact account.symm
  case complete =>
    rintro oldest recent rfl unclosed
    have arrived := sooner.published_arrives orderFirst interrupted.current unclosed
      ((before, .closeQueue loop.queue) :: later)
    rw [account] at arrived
    have labelled := arrived.trans ((Broker.picked_sublist index _).map (loop.queue, ·))
    rw [List.map_map] at labelled
    rwa [run.pulled.2 loop single]
  case waiting =>
    rw [following.publishedTo_history]
    refine shifted.waitingIn_renewed orderAfter ?_ ?_ ?_
    · rw [broker]
      exact Broker.get?_closeQueue _ _
    · exact following.unclosed interrupted.unclosed
    · intro value taken
      rw [yielded value taken]
      exact closed

def Course.loopSteps (course : Course σ ν) (index : Nat) : Nat :=
  course.countP fun moment =>
    match moment.2 with
    | .loop doer _ => doer == index
    | _ => false

theorem Course.loopSteps_else (notLoop : ∀ index heed, event ≠ .loop index heed) (index : Nat) :
    Course.loopSteps (course ++ [(system, event)]) index = course.loopSteps index := by
  unfold loopSteps
  rw [List.countP_append]
  cases event with
  | loop doer heed => exact absurd rfl (notLoop doer heed)
  | _ => rfl

theorem LoopTurn.nearing {queue : String} {phase next : LoopPhase} {left : Nat}
    {operations : List Broker.Operation} (holds : setup.transport.Holds)
    (turn : LoopTurn setup before queue phase operations next) (going : before.cancelled = false)
    (away : phase.toAttempt = some left) :
    (∃ fewer, left = fewer + 1 ∧ next.toAttempt = some fewer) ∨
      before.broker.consumeCalls < (before.broker.performAll operations).consumeCalls := by
  cases turn with
  | leave cancelled _ =>
      rw [going] at cancelled
      simp at cancelled
  | crash _ broke =>
      rw [holds queue] at broke
      simp at broke
  | begin _ =>
      obtain rfl := Option.some.inj away
      exact .inl ⟨0, rfl, rfl⟩
  | opened _ | refused _ =>
      have counted :=
        (before.broker.consume_effect queue (setup.config.consumerTag queue) .none).1
      exact .inr (Nat.lt_of_lt_of_eq (Nat.lt_succ_self _) counted.symm)
  | retry known =>
      obtain rfl := Option.some.inj (known.symm.trans away)
      exact .inl ⟨1, rfl, rfl⟩
  | letGo _ | pull _ | wait _ | ended _ => simp [LoopPhase.toAttempt] at away
  | handOver stream _ =>
      rw [(LoopPhase.apart_of_stream stream).1] at away
      simp at away
  | finish leaves => cases phase <;> simp_all [LoopPhase.toAttempt, LoopPhase.isOver]

theorem Run.consumeCalls (run : Run setup first course system) :
    system.broker.consumeCalls = first.broker.consumeCalls +
      (first.broker.history (course.operations setup)).countP Incident.isAttempt := by
  rw [run.broker, Broker.consumeCalls_performAll]

/-- A loop that is on its way to an attempt makes it within so many steps of its own, if it is not
cancelled meanwhile. -/
theorem Run.nearing {steps : Nat} (holds : setup.transport.Holds) (present : first.loops = [known])
    (away : known.phase.toAttempt = some steps) (run : Run setup first course system)
    (single : system.loops = [loop]) (going : system.cancelled = false) :
    first.broker.consumeCalls < system.broker.consumeCalls ∨
      ∃ left, loop.phase.toAttempt = some left ∧ left + course.loopSteps 0 = steps := by
  induction run generalizing loop with
  | start =>
      obtain rfl := (List.cons.inj (present.symm.trans single)).1
      exact .inr ⟨steps, away, rfl⟩
  | @step course before after event run stepped ih =>
      have goingBefore : before.cancelled = false := by
        refine Bool.eq_false_iff.mpr fun cancelled => ?_
        rw [(State.step_cancelled stepped).1 cancelled] at going
        simp at going
      have calls := run.consumeCalls
      have callsNow := (Run.start.step stepped).consumeCalls
      cases State.sole_step stepped single with
      | born _ noneBefore _ =>
          rw [run.loops_stay noneBefore] at present
          simp at present
      | @turn heed phase isLoop isKnown turn =>
          subst isLoop
          rcases ih isKnown goingBefore with made | ⟨left, awayBefore, counted⟩
          · exact .inl (by omega)
          · rcases turn.nearing holds goingBefore awayBefore with ⟨fewer, rfl, away⟩ | made
            · refine .inr ⟨fewer, away, ?_⟩
              rw [Course.loopSteps, List.countP_append]
              rw [Course.loopSteps] at counted
              simp only [List.countP_singleton, beq_self_eq_true, if_true]
              omega
            · left
              rw [← State.step_broker stepped] at made
              omega
      | @other earlier notLoop isKnown same =>
          rw [Course.loopSteps_else notLoop,
            Loop.phase_same same LoopPhase.toAttempt fun _ _ => rfl]
          rcases ih isKnown goingBefore with made | near
          · exact .inl (by omega)
          · exact .inr near

/-- What holds at any moment of a loop that alone reads from a broker. -/
structure Reconnects (setup : Setup σ) (course : Course σ ν) (system : State σ ν) (loop : Loop) :
    Prop where
  leaves : loop.phase.isOver = true → system.cancelled = true
  dropped : ∀ index stream, .dropped index stream ∈ course.strand setup → system.cancelled = true
  failures : system.counts.streamFailures = (course.strand setup).countP Incident.isRefused
  calls : system.broker.consumeCalls =
    system.counts.streamFailures + system.broker.opened.length
  openings : system.broker.opened =
    List.replicate ((course.strand setup).countP Incident.isOpened)
      ⟨loop.queue, setup.config.tagPrefix ++ loop.queue, ⟨false, false, false, false⟩⟩
  strand : (course.strand setup).IsChain Incident.Follows
  returns : (∀ incident, (course.strand setup).getLast? = some incident → incident.returns = true) →
    loop.phase.toAttempt.isSome = true ∨ system.cancelled = true
  approaches : ∀ steps heed, loop.phase.toAttempt = some steps → system.cancelled = false →
    (∀ timer ∈ loop.phase.timers, timer ≤ system.now) →
      ∃ after, system.step setup (.loop 0 heed) = some after
  attempts : ∀ more last now steps, Run setup system more last → last.loops = [now] →
    last.cancelled = false → loop.phase.toAttempt = some steps → steps < more.loopSteps 0 →
      system.broker.consumeCalls < last.broker.consumeCalls
  pulled : course.pulledBy setup 0 =
    (Broker.yields (course.strand setup)).map fun yielded => (loop.queue, yielded.2)
  handed : loop.phase = .top → system.handedBy 0 = course.pulledBy setup 0
  received : loop.phase = .top → system.counts.received = (course.pulledBy setup 0).length
  kept : ∀ earlier before later index,
    course = earlier ++ (before, .closeQueue loop.queue) :: later →
    Interrupted before later loop.queue index → loop.phase = .top →
      Kept setup earlier before later system loop.queue index

/-- A loop gives up its queue only when it is cancelled. Until then each refusal and each end of a
stream leads to another attempt, and a queue that is closed is read to its end before that. -/
theorem Run.reconnects {registry : Registry (Handler σ ν)} {shared : σ}
    (holds : setup.transport.Holds) (single : system.loops = [loop])
    (run : Run setup (State.start setup registry .empty shared) course system) :
    Reconnects setup course system loop := by
  have threaded := (run.threaded rfl rfl).2 loop single
  have taken : loop ∈ system.loops := by rw [single]; exact List.mem_cons_self
  have leaves := run.exposed.cancelled_of_over holds rfl taken
  have refused : (course.strand setup).countP Incident.isRefused =
      (Broker.empty.history (course.operations setup)).countP Incident.isRefused :=
    Broker.countP_ofStream (fun _ refused => Incident.ofStream_of_attempt (.inl refused)) _
  have streams : (course.strand setup).countP Incident.isOpened =
      (Broker.empty.history (course.operations setup)).countP Incident.isOpened :=
    Broker.countP_ofStream (fun _ opened => Incident.ofStream_of_attempt (.inr opened)) _
  have failures :
      system.counts.streamFailures = (course.strand setup).countP Incident.isRefused := by
    rw [refused]
    exact run.failures.trans (Nat.zero_add _)
  have openings : system.broker.opened =
      List.replicate ((course.strand setup).countP Incident.isOpened)
        ⟨loop.queue, setup.config.consumerTag loop.queue, .none⟩ := by
    rw [streams, run.broker]
    exact Broker.empty.opened_performAll (run.asked.2 loop single)
  refine ⟨leaves, threaded.dropped, failures, ?calls, openings, threaded.chain, ?returns,
    ?approaches, ?attempts, ?pulled, ?handed, ?received, ?kept⟩
  case calls =>
    have calls := run.consumeCalls
    rw [Broker.countP_isAttempt] at calls
    rw [openings, List.length_replicate, failures, refused, streams]
    exact calls.trans (Nat.zero_add _)
  case returns =>
    intro returned
    rcases threaded.fits.of_returned returned with away | left | cancelled
    · exact .inl away
    · exact .inr (leaves left)
    · exact .inr cancelled
  case approaches =>
    intro steps heed away going due
    obtain ⟨after, stepped, _⟩ := State.approaches holds single going due away heed
    exact ⟨after, stepped⟩
  case attempts =>
    intro more last now steps later present going away enough
    rcases later.nearing holds single away present going with made | ⟨left, _, counted⟩
    · exact made
    · omega
  case pulled =>
    rw [Course.strand, Broker.yields_ofStream]
    exact run.pulled.2 loop single
  case handed =>
    intro isTop
    have custody := run.custody rfl rfl 0
    rw [State.heldBy, single] at custody
    simp only [List.getElem?_cons_zero, isTop, LoopPhase.held, List.map_nil,
      List.append_nil] at custody
    exact custody.symm
  case received =>
    intro isTop
    have received := (run.received rfl rfl).2 loop single
    rw [isTop] at received
    exact received
  case kept =>
    rintro earlier before later index rfl interrupted isTop
    exact run.kept rfl interrupted single isTop

def Event.closes : Event σ ν → Bool
  | .closeQueue _ => true
  | _ => false

def patientSetup : Setup Unit :=
  Setup.usual { ConsumerConfig.default with reconnectBackoffMs := 5 } Recovery.report
    Transport.prompt

def refusedEvents : List (Event Unit Unit) :=
  [.failConsumes 1, .publish "q" (some "a") [], .publish "q" (some "b") [], .subscribe "q",
    .caller 0, .loop 0 true, .loop 0 true, .tick 5] ++ List.replicate 7 (.loop 0 true)

def reopeningEvents : List (Event Unit Unit) :=
  .publish "q" (some "c") [] :: List.replicate 5 (.loop 0 true) ++ [.tick 10, .loop 0 true]

theorem reconnects_closed :
    ∃ (earlier later : Course Unit Unit) (before system : State Unit Unit),
      Run patientSetup (State.start patientSetup Registry.empty .empty ())
          (earlier ++ (before, .closeQueue "q") :: later) system ∧
        Interrupted before later "q" 0 ∧
        Reconnects patientSetup (earlier ++ (before, .closeQueue "q") :: later) system
          ⟨"q", .top⟩ ∧
        (before.broker.waitingAt 0).length = 1 ∧
        (later.publishedTo patientSetup "q").length = 1 ∧
        system.counts.streamFailures = 1 ∧ system.broker.consumeCalls = 2 := by
  have seen : ((State.start patientSetup Registry.empty .empty ()).follow patientSetup
      refusedEvents).any (fun led =>
        decide (led.2.broker.queues.get? "q" = some 0) &&
          (decide (led.2.loops = [⟨"q", .reading 0⟩]) &&
          (decide (led.2.broker.streams[0]? = some ⟨0, true⟩) &&
          (decide ((led.2.broker.waitingAt 0).length = 1) &&
          (led.2.step patientSetup (.closeQueue "q")).any fun closed =>
            (closed.follow patientSetup reopeningEvents).any fun more =>
              decide (more.2.loops = [⟨"q", .top⟩]) &&
                (decide ((more.1.publishedTo patientSetup "q").length = 1) &&
                (decide (more.2.counts.streamFailures = 1) &&
                (decide (more.2.broker.consumeCalls = 2) &&
                more.1.all fun moment =>
                  !moment.1.cancelled && (moment.1.loops.all (fun loop => loop.phase != .top) &&
                    !moment.2.closes)))))))) = true := by
    decide +kernel
  obtain ⟨⟨earlier, before⟩, followed, checked⟩ := (Option.any_eq_true _ _).mp seen
  simp only [Bool.and_eq_true, decide_eq_true_eq] at checked
  obtain ⟨current, reads, live, waits, closes⟩ := checked
  obtain ⟨closed, stepped, closes⟩ := (Option.any_eq_true _ _).mp closes
  obtain ⟨⟨later, system⟩, reopened, checked⟩ := (Option.any_eq_true _ _).mp closes
  simp only [Bool.and_eq_true, decide_eq_true_eq, List.all_eq_true, Bool.not_eq_true',
    bne_iff_ne] at checked
  obtain ⟨single, published, failures, calls, moments⟩ := checked
  have run := ((Run.start.follow followed).step stepped).follow reopened
  rw [List.nil_append, List.append_assoc, List.singleton_append] at run
  refine ⟨earlier, later, before, system, run, ⟨current, ⟨_, 0, reads, rfl, live⟩, ?_, ?_, ?_⟩,
    Run.reconnects (fun _ => rfl) single run, waits, published, failures, calls⟩
  · exact fun moment taken _ _ _ => (moments moment taken).1
  · intro moment taken closing
    have last := (moments moment taken).2.2
    rw [closing] at last
    simp [Event.closes] at last
  · exact fun moment taken => (moments moment taken).2.1

end TaskQueue.Consumer
