import TaskQueue.Proofs.Consumer.Channel

/-!
A consumer with one loop, on a broker that nobody else reads from. After a refusal, and after a
stream that has ended, the loop makes another attempt; it lets go of a stream, and leaves, only when
it is cancelled. A queue that is closed is read to its end before the loop comes back to its top.
-/

namespace TaskQueue

namespace Broker.Incident

/-- Whether an incident sends the loop back to another attempt. -/
def returns : Incident → Bool
  | .refused _ | .ended _ _ => true
  | _ => false

def held? : Incident → Option (Nat × Nat)
  | .opened index _ stream => some (index, stream)
  | .yielded index stream _ => some (index, stream)
  | _ => none

def used? : Incident → Option (Nat × Nat)
  | .yielded index stream _ => some (index, stream)
  | .ended index stream | .dropped index stream => some (index, stream)
  | _ => none

/-- What may come next of the streams of one loop. -/
def Follows (earlier later : Incident) : Prop :=
  (earlier.returns = true ∧ later.isAttempt = true) ∨
    ∃ place, earlier.held? = some place ∧ later.used? = some place

theorem follows_of_held {last : Option Incident} {known later : Incident} {place : Nat × Nat}
    (isLast : last = some known) (held : known.held? = some place)
    (used : later.used? = some place) : ∀ earlier, last = some earlier → earlier.Follows later := by
  rintro earlier isEarlier
  obtain rfl := Option.some.inj (isLast.symm.trans isEarlier)
  exact Or.inr ⟨place, held, used⟩

end Broker.Incident

namespace Consumer

open Broker (Incident)

variable {σ ν : Type} {setup : Setup σ} {first system before after : State σ ν}
  {course : Course σ ν} {event : Event σ ν} {loop : Loop}

section Granted

variable {known : Loop}

theorem Loop.queue_same (same : loop = known ∨ loop = known.grant) : loop.queue = known.queue := by
  rcases same with rfl | rfl
  · rfl
  · exact known.grant_queue

theorem Loop.phase_same {α : Type} (same : loop = known ∨ loop = known.grant)
    (pick : LoopPhase → α)
    (granted :
      ∀ stream delivery, pick (.starting stream delivery) = pick (.waiting stream delivery)) :
    pick loop.phase = pick known.phase := by
  rcases same with rfl | rfl
  · rfl
  · exact known.grant_same pick granted

end Granted

/-- A step of a consumer that has one loop after it. -/
inductive SoleStep (setup : Setup σ) (before : State σ ν) (event : Event σ ν) (loop : Loop) : Prop
  | born : (∀ index heed, event ≠ .loop index heed) → before.loops = [] → loop.phase = .top →
      SoleStep setup before event loop
  | turn {heed : Bool} {phase : LoopPhase} : event = .loop 0 heed →
      before.loops = [⟨loop.queue, phase⟩] →
      LoopTurn setup before loop.queue phase (before.operations setup event) loop.phase →
      SoleStep setup before event loop
  | other {known : Loop} : (∀ index heed, event ≠ .loop index heed) → before.loops = [known] →
      loop = known ∨ loop = known.grant → SoleStep setup before event loop

theorem State.sole_step (stepped : before.step setup event = some after)
    (single : after.loops = [loop]) : SoleStep setup before event loop := by
  cases step_stepped stepped with
  | task _ _ _ _ frame _ =>
      rcases frame.loops with same | ⟨granted, modified⟩
      · exact .other (by simp) (same.symm.trans single) (.inl rfl)
      · rw [single] at modified
        have length := congrArg List.length modified
        rw [List.length_modify] at length
        obtain ⟨known, isKnown⟩ := List.length_eq_one_iff.mp length.symm
        refine .other (by simp) isKnown ?_
        rw [isKnown] at modified
        cases granted with
        | zero => exact .inr (List.cons.inj modified).1
        | succ granted =>
            rw [List.modify_eq_self (Nat.succ_le_succ (Nat.zero_le _))] at modified
            exact .inl (List.cons.inj modified).1
  | @loop index heed known pulled next found _ _ _ _ _ _ =>
      obtain ⟨next, turn, moved, _, _⟩ := stepLoop_turned found stepped
      rw [single] at moved
      have length := congrArg List.length moved
      rw [List.length_modify] at length
      obtain ⟨other, isOther⟩ := List.length_eq_one_iff.mp length.symm
      rw [isOther] at found moved
      have place : index = 0 := by
        have bound := (List.getElem?_eq_some_iff.mp found).1
        simpa using bound
      subst place
      obtain rfl := Option.some.inj found
      obtain rfl := (List.cons.inj moved).1
      exact .turn rfl isOther turn
  | outside _ notLoop frame _ =>
      rcases frame.loops with same | ⟨queue, _, added⟩
      · exact .other notLoop (same.symm.trans single) (.inl rfl)
      · rw [single] at added
        have length := congrArg List.length added
        rw [List.length_append, List.length_singleton, List.length_singleton] at length
        have nothing : before.loops = [] := List.length_eq_zero_iff.mp (by omega)
        rw [nothing] at added
        obtain rfl := (List.cons.inj added).1
        exact .born notLoop nothing rfl

theorem State.no_loops (stepped : before.step setup event = some after)
    (none : after.loops = []) :
    before.loops = [] ∧ ∀ index heed, event ≠ .loop index heed := by
  cases step_stepped stepped with
  | task _ _ _ _ frame _ =>
      refine ⟨?_, by simp⟩
      rcases frame.loops with same | ⟨granted, modified⟩
      · exact same.symm.trans none
      · rw [none] at modified
        exact List.modify_eq_nil_iff.mp modified.symm
  | loop found _ _ moved _ _ _ =>
      rw [none] at moved
      rw [List.modify_eq_nil_iff.mp moved.symm] at found
      simp at found
  | outside _ notLoop frame _ =>
      refine ⟨?_, notLoop⟩
      rcases frame.loops with same | ⟨queue, _, added⟩
      · exact same.symm.trans none
      · rw [none] at added
        simp at added

theorem Run.loops_stay (run : Run setup first course system) (none : system.loops = []) :
    first.loops = [] := by
  induction run with
  | start => exact none
  | step _ stepped ih => exact ih (State.no_loops stepped none).1

theorem LoopPhase.apart_of_stream {phase : LoopPhase} {stream : Nat}
    (holds : phase.stream? = some stream) : phase.toAttempt = none ∧ phase.isOver = false := by
  cases phase <;> simp_all [LoopPhase.stream?, LoopPhase.toAttempt, LoopPhase.isOver]

theorem LoopPhase.without_stream {phase : LoopPhase}
    (away : phase.toAttempt.isSome = true ∨ phase.isOver = true) : phase.stream? = none := by
  cases known : phase.stream? with
  | none => rfl
  | some stream =>
      obtain ⟨noAttempt, going⟩ := LoopPhase.apart_of_stream known
      rw [noAttempt, going] at away
      simp at away

/-- Where the loop is after what last came of its streams. -/
inductive Fits (system : State σ ν) : Option Incident → LoopPhase → Prop
  | idle {last : Option Incident} {phase : LoopPhase} :
      (∀ incident, last = some incident → incident.returns = true) →
      phase.toAttempt.isSome = true ∨ phase.isOver = true → Fits system last phase
  | holding {incident : Incident} {index stream : Nat} {phase : LoopPhase} :
      incident.held? = some (index, stream) → phase.stream? = some stream →
      system.broker.streams[stream]? = some ⟨index, true⟩ → Fits system (some incident) phase
  | left {index stream : Nat} {phase : LoopPhase} : system.cancelled = true →
      phase = .top ∨ phase.isOver = true → Fits system (some (.dropped index stream)) phase

theorem Fits.of_stream {last : Option Incident} {phase : LoopPhase} {stream : Nat}
    (fits : Fits system last phase) (holds : phase.stream? = some stream) :
    ∃ incident index, last = some incident ∧ incident.held? = some (index, stream) ∧
      system.broker.streams[stream]? = some ⟨index, true⟩ := by
  obtain ⟨noAttempt, going⟩ := LoopPhase.apart_of_stream holds
  cases fits with
  | idle _ away =>
      rw [noAttempt, going] at away
      simp at away
  | holding held holdsToo live =>
      obtain rfl := Option.some.inj (holds.symm.trans holdsToo)
      exact ⟨_, _, rfl, held, live⟩
  | left _ away =>
      rcases away with rfl | leaves
      · simp [LoopPhase.stream?] at holds
      · rw [going] at leaves
        simp at leaves

theorem Fits.of_attempt {last : Option Incident} {phase : LoopPhase} {steps : Nat}
    (fits : Fits system last phase) (away : phase.toAttempt = some steps) :
    (∀ incident, last = some incident → incident.returns = true) ∨
      system.cancelled = true ∧ phase = .top := by
  cases fits with
  | idle returns _ => exact Or.inl returns
  | holding _ holds _ =>
      rw [(LoopPhase.apart_of_stream holds).1] at away
      simp at away
  | left cancelled away' =>
      rcases away' with isTop | leaves
      · exact Or.inr ⟨cancelled, isTop⟩
      · cases phase <;> simp_all [LoopPhase.toAttempt, LoopPhase.isOver]

theorem Fits.of_returned {last : Option Incident} {phase : LoopPhase}
    (fits : Fits system last phase)
    (returned : ∀ incident, last = some incident → incident.returns = true) :
    phase.toAttempt.isSome = true ∨ phase.isOver = true ∨ system.cancelled = true := by
  cases fits with
  | idle _ away => exact away.imp_right Or.inl
  | @holding incident _ _ _ held _ _ =>
      have returns := returned incident rfl
      cases incident <;> simp_all [Incident.held?, Incident.returns]
  | left cancelled _ => exact Or.inr (Or.inr cancelled)

/-- A step of the loop brings at most one incident, one that may follow, and the loop is where that
leaves it. -/
inductive Fits.Turned (before after : State σ ν) (operations : List Broker.Operation)
    (last : Option Incident) (next : LoopPhase) : Prop
  | silent : before.broker.history operations = [] → Fits after last next →
      Turned before after operations last next
  | told {incident : Incident} : before.broker.history operations = [incident] →
      incident.ofStream = true → (∀ earlier, last = some earlier → earlier.Follows incident) →
      Fits after (some incident) next → Turned before after operations last next

namespace Fits

variable {last : Option Incident} {phase next : LoopPhase} {queue : String} {ready stream : Nat}

theorem returned {steps : Nat} (fits : Fits before last phase)
    (away : phase.toAttempt = some steps) (notTop : phase ≠ .top) :
    ∀ incident, last = some incident → incident.returns = true :=
  (fits.of_attempt away).resolve_right fun left => notTop left.2

theorem returned_of_going {steps : Nat} (fits : Fits before last phase)
    (away : phase.toAttempt = some steps) (going : before.cancelled = false) :
    ∀ incident, last = some incident → incident.returns = true :=
  (fits.of_attempt away).resolve_right fun left => by simp [left.1] at going

theorem stopped (fits : Fits before last phase) (streamless : phase.stream? = none)
    (cancelled : after.cancelled = before.cancelled) (leaves : next.isOver = true) :
    Fits after last next := by
  cases fits with
  | idle returns _ => exact .idle returns (.inr leaves)
  | holding _ holds _ => simp [streamless] at holds
  | left stops _ => exact .left (cancelled.trans stops) (.inr leaves)

theorem turned_opened (fits : Fits before last (.opening ready)) {consumerTag : String}
    (consumed : (before.broker.consume queue consumerTag .none).1 = .ok stream)
    (broker : after.broker = before.broker.performAll [.consume queue consumerTag .none]) :
    Turned before after [.consume queue consumerTag .none] last (.reading stream) := by
  refine .told (by simp only [Broker.history, Broker.incidents, consumed]; rfl) rfl ?_
    (.holding rfl rfl ?_)
  · intro earlier isLast
    exact Or.inl ⟨fits.returned rfl (by simp) earlier isLast, rfl⟩
  · rw [broker]
    exact before.broker.consume_live consumed

theorem turned_refused (fits : Fits before last (.opening ready)) {consumerTag : String}
    {error : TransportError}
    (consumed : (before.broker.consume queue consumerTag .none).1 = .error error) :
    Turned before after [.consume queue consumerTag .none] last (.paused setup before.now) := by
  refine .told (by simp only [Broker.history, Broker.incidents, consumed]; rfl) rfl ?_
    (.idle ?_ (.inl ?_))
  · intro earlier isLast
    exact Or.inl ⟨fits.returned rfl (by simp) earlier isLast, rfl⟩
  · rintro _ ⟨⟩
    rfl
  · rw [LoopPhase.paused_same LoopPhase.toAttempt fun _ => rfl]
    rfl

theorem turned_letGo (fits : Fits before last (.reading stream)) (stops : before.cancelled = true)
    (cancelled : after.cancelled = before.cancelled) :
    Turned before after [.drop stream] last .top := by
  obtain ⟨incident, index, isLast, held, live⟩ := fits.of_stream rfl
  refine .told ?_ rfl (Incident.follows_of_held isLast held rfl)
    (.left (cancelled.trans stops) (.inl rfl))
  simp only [Broker.history, Broker.incidents, Broker.source_of_stream live]
  rfl

theorem turned_read (fits : Fits before last (.reading stream)) (order : before.broker.InOrder)
    (broker : after.broker = before.broker.performAll [.next stream])
    (goesOn : (before.broker.poll stream).1 ≠ .ended) (holds : next.stream? = some stream) :
    Turned before after [.next stream] last next := by
  obtain ⟨incident, index, isLast, held, live⟩ := fits.of_stream rfl
  have shifted := order.shifted_history [.next stream]
  subst isLast
  cases polled : (before.broker.poll stream).1 with
  | ended => exact absurd polled goesOn
  | pending =>
      have silent := Broker.history_next_pending live polled
      rw [silent] at shifted
      refine .silent silent (.holding held holds ?_)
      rw [broker]
      exact shifted.live live (by simp) (by simp)
  | next delivery =>
      have brought := Broker.history_next_brings live polled
      rw [brought] at shifted
      refine .told brought rfl (Incident.follows_of_held rfl held rfl) (.holding rfl holds ?_)
      rw [broker]
      exact shifted.live live (by simp) (by simp)

theorem turned_ended (fits : Fits before last (.reading stream))
    (polled : (before.broker.poll stream).1 = .ended) :
    Turned before after [.next stream] last
      (if before.cancelled then .top else .paused setup before.now) := by
  obtain ⟨incident, index, isLast, held, live⟩ := fits.of_stream rfl
  refine .told (Broker.history_next_ended live polled) rfl
    (Incident.follows_of_held isLast held rfl) (.idle ?_ (.inl ?_))
  · rintro _ ⟨⟩
    rfl
  · split
    · rfl
    · rw [LoopPhase.paused_same LoopPhase.toAttempt fun _ => rfl]
      rfl

theorem turn {operations : List Broker.Operation}
    (turn : LoopTurn setup before queue phase operations next) (order : before.broker.InOrder)
    (broker : after.broker = before.broker.performAll operations)
    (cancelled : after.cancelled = before.cancelled) (fits : Fits before last phase) :
    Turned before after operations last next := by
  cases turn with
  | leave _ away =>
      have without := LoopPhase.without_stream (.inl (Option.isSome_of_eq_some away))
      exact .silent rfl (fits.stopped without cancelled rfl)
  | crash => exact .silent rfl (fits.stopped rfl cancelled rfl)
  | begin going => exact .silent rfl (.idle (fits.returned_of_going rfl going) (.inl rfl))
  | opened consumed => exact fits.turned_opened consumed broker
  | refused consumed => exact fits.turned_refused consumed
  | letGo stops => exact fits.turned_letGo stops cancelled
  | pull polled => exact fits.turned_read order broker (by simp [polled]) rfl
  | wait polled => exact fits.turned_read order broker (by simp [polled]) rfl
  | ended polled => exact fits.turned_ended polled
  | handOver holds holdsToo =>
      obtain ⟨incident, index, isLast, held, live⟩ := fits.of_stream holds
      subst isLast
      exact .silent rfl (.holding held holdsToo (broker ▸ live))
  | retry away =>
      refine .silent rfl (.idle (fits.returned away ?_) (.inl rfl))
      rintro rfl
      simp [LoopPhase.toAttempt] at away
  | finish leaves =>
      exact .silent rfl (fits.stopped (LoopPhase.without_stream (.inr leaves)) cancelled rfl)

end Fits

theorem Fits.other {last : Option Incident} {known : Loop} (fits : Fits before last known.phase)
    (order : before.broker.InOrder) (same : loop = known ∨ loop = known.grant)
    (broker : after.broker = before.broker.performAll (before.operations setup event))
    (quiet : (before.incidents setup event).filter Incident.ofStream = [])
    (cancelled : before.cancelled = true → after.cancelled = true) :
    Fits after last loop.phase := by
  cases fits with
  | idle returns away =>
      refine .idle returns ?_
      rw [Loop.phase_same same LoopPhase.toAttempt fun _ _ => rfl,
        Loop.phase_same same LoopPhase.isOver fun _ _ => rfl]
      exact away
  | holding held holds live =>
      have shifted := order.shifted_history (before.operations setup event)
      refine .holding held ((Loop.phase_same same LoopPhase.stream? fun _ _ => rfl).trans holds) ?_
      rw [broker]
      refine shifted.live live ?_ ?_
      · intro ended
        exact List.filter_eq_nil_iff.mp quiet _ ended rfl
      · intro dropped
        exact List.filter_eq_nil_iff.mp quiet _ dropped rfl
  | left stops away =>
      refine .left (cancelled stops) ?_
      rw [Loop.phase_same same LoopPhase.isOver fun _ _ => rfl]
      rcases away with isTop | leaves
      · refine Or.inl ?_
        rcases same with rfl | rfl
        · exact isTop
        · rw [Loop.grant, isTop]
          exact isTop
      · exact Or.inr leaves

structure Threaded (system : State σ ν) (loop : Loop) (past : List Incident) : Prop where
  chain : past.IsChain Incident.Follows
  fits : Fits system past.getLast? loop.phase
  dropped : ∀ index stream, .dropped index stream ∈ past → system.cancelled = true

/-- What came of streams in a run, in order. -/
def Course.strand (setup : Setup σ) (course : Course σ ν) : List Incident :=
  (Broker.empty.history (course.operations setup)).filter Incident.ofStream

theorem Run.strand_append (noBroker : first.broker = .empty)
    (run : Run setup first course system) :
    (course ++ [(system, event)]).strand setup =
      course.strand setup ++ (system.incidents setup event).filter Incident.ofStream := by
  unfold Course.strand
  rw [← noBroker, run.history_append, List.filter_append]

theorem State.step_cancelled (stepped : before.step setup event = some after) :
    (before.cancelled = true → after.cancelled = true) ∧
      ∀ index heed, event = .loop index heed → after.cancelled = before.cancelled := by
  cases step_stepped stepped with
  | task _ _ _ _ _ effect => exact ⟨effect.cancelled, by simp⟩
  | loop _ _ _ _ _ _ effect => exact ⟨effect.cancelled.trans, fun _ _ _ => effect.cancelled⟩
  | outside _ notLoop _ effect =>
      exact ⟨effect.cancelled, fun index heed same => absurd same (notLoop index heed)⟩

theorem Threaded.quiet {known : Loop} {past : List Incident} (threaded : Threaded before known past)
    (order : before.broker.InOrder) (stepped : before.step setup event = some after)
    (notLoop : ∀ index heed, event ≠ .loop index heed) (same : loop = known ∨ loop = known.grant) :
    Threaded after loop past := by
  have cancelled := (State.step_cancelled stepped).1
  refine ⟨threaded.chain, ?_, ?_⟩
  · exact threaded.fits.other order same (State.step_broker stepped)
      (before.incidents_other setup notLoop) cancelled
  · intro index stream dropped
    exact cancelled (threaded.dropped index stream dropped)

theorem Threaded.turn {heed : Bool} {phase : LoopPhase} {past : List Incident}
    (threaded : Threaded before ⟨loop.queue, phase⟩ past) (order : before.broker.InOrder)
    (stepped : before.step setup (.loop 0 heed) = some after)
    (turn : LoopTurn setup before loop.queue phase (before.operations setup (.loop 0 heed))
      loop.phase) :
    Threaded after loop
      (past ++ (before.incidents setup (.loop 0 heed)).filter Incident.ofStream) := by
  have cancelled := (State.step_cancelled stepped).2 0 heed rfl
  have kept : ∀ index stream, .dropped index stream ∈ past → after.cancelled = true := by
    intro index stream dropped
    exact cancelled.trans (threaded.dropped index stream dropped)
  cases threaded.fits.turn turn order (State.step_broker stepped) cancelled with
  | silent nothing fits =>
      rw [State.incidents, nothing, List.filter_nil, List.append_nil]
      exact ⟨threaded.chain, fits, kept⟩
  | @told incident came ofStream follows fits =>
      have alone :
          (before.incidents setup (.loop 0 heed)).filter Incident.ofStream = [incident] := by
        rw [State.incidents, came, List.filter_cons_of_pos ofStream, List.filter_nil]
      rw [alone]
      refine ⟨?_, ?_, ?_⟩
      · refine threaded.chain.append (List.isChain_singleton incident) ?_
        intro earlier isLast later isHead
        obtain rfl := Option.some.inj isHead
        exact follows earlier isLast
      · rw [List.getLast?_concat]
        exact fits
      · intro index stream dropped
        rcases List.mem_append.mp dropped with old | new
        · exact kept index stream old
        · obtain rfl := List.mem_singleton.mp new
          cases fits with
          | idle returns _ => exact absurd (returns _ rfl) (by simp [Incident.returns])
          | holding held _ _ => simp [Incident.held?] at held
          | left stops _ => exact stops

theorem Run.threaded (noBroker : first.broker = .empty) (noLoops : first.loops = [])
    (run : Run setup first course system) :
    (system.loops = [] → course.strand setup = []) ∧
      ∀ loop, system.loops = [loop] → Threaded system loop (course.strand setup) := by
  induction run with
  | start =>
      refine ⟨fun _ => rfl, ?_⟩
      intro loop single
      rw [noLoops] at single
      simp at single
  | @step course before after event run stepped ih =>
      have order : before.broker.InOrder := by
        refine (run.shifted ?_).inOrder ?_ <;> exact noBroker ▸ .empty
      rw [run.strand_append noBroker]
      constructor
      · intro none
        obtain ⟨noneBefore, notLoop⟩ := State.no_loops stepped none
        rw [ih.1 noneBefore, before.incidents_other setup notLoop]
        rfl
      · intro loop single
        cases State.sole_step stepped single with
        | born notLoop noneBefore isTop =>
            rw [ih.1 noneBefore, before.incidents_other setup notLoop]
            refine ⟨List.isChain_nil, .idle (by simp) (.inl ?_), by simp⟩
            rw [isTop]
            rfl
        | turn isLoop known turn =>
            subst isLoop
            exact (ih.2 _ known).turn order stepped turn
        | other notLoop known same =>
            rw [before.incidents_other setup notLoop, List.append_nil]
            exact (ih.2 _ known).quiet order stepped notLoop same

theorem State.operations_other (system : State σ ν) (setup : Setup σ)
    (notLoop : ∀ index heed, event ≠ .loop index heed) {operation : Broker.Operation}
    (asked : operation ∈ system.operations setup event) : operation.isConsume = false := by
  cases event with
  | loop index heed => exact absurd rfl (notLoop index heed)
  | task index =>
      simp only [operations] at asked
      split at asked
      · rw [List.mem_singleton.mp asked]
        rfl
      · simp at asked
  | publish _ _ _ | publishTask _ _ _ | closeQueue _ | failConsumes _ | failTerminations _ =>
      rw [List.mem_singleton.mp asked]
      rfl
  | _ => simp [operations] at asked

theorem LoopTurn.asked {queue : String} {phase next : LoopPhase}
    {operations : List Broker.Operation} {operation : Broker.Operation}
    (turn : LoopTurn setup before queue phase operations next) (asked : operation ∈ operations)
    (isConsume : operation.isConsume = true) :
    operation = .consume queue (setup.config.consumerTag queue) .none := by
  cases turn with
  | opened _ | refused _ => exact List.mem_singleton.mp asked
  | letGo _ | pull _ | wait _ | ended _ =>
      rw [List.mem_singleton.mp asked] at isConsume
      simp [Broker.Operation.isConsume] at isConsume
  | _ => simp at asked

theorem Run.asked (run : Run setup first course system) :
    (system.loops = [] → ∀ operation ∈ course.operations setup, operation.isConsume = false) ∧
      ∀ loop, system.loops = [loop] → ∀ operation ∈ course.operations setup,
        operation.isConsume = true →
          operation = .consume loop.queue (setup.config.consumerTag loop.queue) .none := by
  induction run with
  | start => simp [Course.operations]
  | @step course before after event run stepped ih =>
      rw [Course.operations_append]
      constructor
      · intro none operation asked
        obtain ⟨noneBefore, notLoop⟩ := State.no_loops stepped none
        rcases List.mem_append.mp asked with old | new
        · exact ih.1 noneBefore operation old
        · exact before.operations_other setup notLoop new
      · intro loop single operation asked isConsume
        cases State.sole_step stepped single with
        | born notLoop noneBefore _ =>
            rcases List.mem_append.mp asked with old | new
            · rw [ih.1 noneBefore operation old] at isConsume
              simp at isConsume
            · rw [before.operations_other setup notLoop new] at isConsume
              simp at isConsume
        | turn _ known turn =>
            rcases List.mem_append.mp asked with old | new
            · exact ih.2 _ known operation old isConsume
            · exact turn.asked new isConsume
        | @other known notLoop isKnown same =>
            rcases List.mem_append.mp asked with old | new
            · rw [Loop.queue_same same]
              exact ih.2 known isKnown operation old isConsume
            · rw [before.operations_other setup notLoop new] at isConsume
              simp at isConsume

/-- A loop that has no stream and is not cancelled can take its next step as soon as its time has
come, and each of its steps brings it closer to an attempt. -/
theorem State.approaches {steps : Nat} (holds : setup.transport.Holds)
    (single : system.loops = [loop]) (going : system.cancelled = false)
    (due : ∀ timer ∈ loop.phase.timers, timer ≤ system.now)
    (away : loop.phase.toAttempt = some steps) (heed : Bool) :
    ∃ after, system.step setup (.loop 0 heed) = some after ∧
      (0 < steps ∧ after.broker = system.broker ∧
          (∃ next, after.loops = [⟨loop.queue, next⟩] ∧ next.toAttempt = some (steps - 1)) ∨
        steps = 0 ∧ after.broker =
          (system.broker.consume loop.queue (setup.config.consumerTag loop.queue) .none).2) := by
  obtain ⟨queue, phase⟩ := loop
  have found : system.loops[0]? = some ⟨queue, phase⟩ := by rw [single]; rfl
  simp only [step, stepLoop, found]
  cases phase with
  | top =>
      obtain rfl := Option.some.inj away
      simp only [going, Bool.false_eq_true, if_false, beginOpening, holds queue]
      refine ⟨_, rfl, Or.inl ⟨Nat.one_pos, rfl, .opening (system.now + setup.transport.delay), ?_,
        rfl⟩⟩
      simp [single]
  | opening ready =>
      obtain rfl := Option.some.inj away
      have isDue := due ready (by simp [LoopPhase.timers])
      simp only [going, Bool.false_and, Bool.false_eq_true, if_false, if_pos isDue]
      refine ⟨_, rfl, Or.inr ⟨trivial, ?_⟩⟩
      simp only [openStream]
      split
      · rfl
      · rw [pause_eq]
        rfl
  | pausing ready =>
      obtain rfl := Option.some.inj away
      have isDue := due ready (by simp [LoopPhase.timers])
      simp only [going, Bool.false_and, Bool.false_eq_true, if_false, if_pos isDue]
      refine ⟨_, rfl, Or.inl ⟨Nat.two_pos, rfl, .top, ?_, rfl⟩⟩
      simp [single]
  | yielding =>
      obtain rfl := Option.some.inj away
      simp only [going, Bool.false_eq_true, if_false]
      refine ⟨_, rfl, Or.inl ⟨Nat.two_pos, rfl, .top, ?_, rfl⟩⟩
      simp [single]
  | _ => simp [LoopPhase.toAttempt] at away

end Consumer

end TaskQueue
