import Mathlib.Data.List.Perm.Basic
import TaskQueue.Proofs.Broker.Custody
import TaskQueue.Proofs.Lists

/-!
The operations of a broker one after the other, and what comes of them: which incarnation each
message is published to, which incarnation each stream is opened on, what each stream brings and
when it ends. An operation goes through a few shifts of what the broker holds. A shift is all that a
later proof has to look at.
-/

namespace TaskQueue.Broker

inductive Operation
  | publish (queue : String) (messageId : Option String) (body : Bytes)
  | publishTask (ids : Nat → MessageId) (queue : String) (param : TaskParam)
  | consume (queue consumerTag : String) (options : ConsumeOptions)
  | next (stream : Nat)
  | drop (stream : Nat)
  | terminate (tag : UInt64) (termination : Termination)
  | closeQueue (queue : String)
  | failConsumes (count : Nat)
  | failTerminations (count : Nat)

def Operation.publishes : Operation → Bool
  | .publish _ _ _ => true
  | .publishTask _ _ _ => true
  | _ => false

def Operation.isConsume : Operation → Bool
  | .consume _ _ _ => true
  | _ => false

def perform (broker : Broker) : Operation → Broker
  | .publish queue messageId body => (broker.publish queue messageId body).2
  | .publishTask ids queue param => (broker.publishTask ids queue param).2.2
  | .consume queue consumerTag options => (broker.consume queue consumerTag options).2
  | .next stream => (broker.poll stream).2
  | .drop stream => broker.dropStream stream
  | .terminate tag termination => (broker.terminate tag termination).2
  | .closeQueue queue => broker.closeQueue queue
  | .failConsumes count => broker.failConsumes count
  | .failTerminations count => broker.failTerminations count

def performAll (broker : Broker) (operations : List Operation) : Broker :=
  operations.foldl perform broker

/-- What can be seen of an operation, with the index of the incarnation that it is about. -/
inductive Incident
  | published (index : Nat) (queue : String) (delivery : Delivery)
  | opened (index : Nat) (queue : String) (stream : Nat)
  | refused (queue : String)
  | yielded (index stream : Nat) (delivery : Delivery)
  | ended (index stream : Nat)
  | dropped (index stream : Nat)
  | closed (index : Nat) (queue : String)
deriving DecidableEq, Repr

namespace Incident

def isRefused : Incident → Bool
  | .refused _ => true
  | _ => false

def isOpened : Incident → Bool
  | .opened _ _ _ => true
  | _ => false

def isAttempt (incident : Incident) : Bool := incident.isRefused || incident.isOpened

end Incident

def incidents (broker : Broker) : Operation → List Incident
  | .publish queue messageId body =>
      [.published (broker.incarnate queue).1 queue
        ⟨(broker.publish queue messageId body).1, messageId, body⟩]
  | .publishTask ids queue param =>
      [.published (broker.incarnate queue).1 queue
        ⟨(broker.publishTask ids queue param).2.1,
          some (broker.publishTask ids queue param).1.text, Payload.encode param⟩]
  | .consume queue consumerTag options =>
      match (broker.consume queue consumerTag options).1 with
      | .ok stream => [.opened (broker.incarnate queue).1 queue stream]
      | .error _ => [.refused queue]
  | .next stream =>
      match broker.streams[stream]?, (broker.poll stream).1 with
      | some ⟨index, _⟩, .next delivery => [.yielded index stream delivery]
      | some ⟨index, true⟩, .ended => [.ended index stream]
      | _, _ => []
  | .drop stream => (broker.source? stream).toList.map (.dropped · stream)
  | .closeQueue queue => (broker.queues.get? queue).toList.map (.closed · queue)
  | _ => []

def history (broker : Broker) : List Operation → List Incident
  | [] => []
  | operation :: rest => broker.incidents operation ++ (broker.perform operation).history rest

section Next

variable {broker : Broker} {index stream : Nat}

theorem history_next_brings {delivery : Delivery}
    (live : broker.streams[stream]? = some ⟨index, true⟩)
    (polled : (broker.poll stream).1 = .next delivery) :
    broker.history [.next stream] = [.yielded index stream delivery] := by
  simp only [history, incidents, live, polled, List.append_nil]

theorem history_next_pending (live : broker.streams[stream]? = some ⟨index, true⟩)
    (polled : (broker.poll stream).1 = .pending) : broker.history [.next stream] = [] := by
  simp only [history, incidents, live, polled, List.append_nil]

theorem history_next_ended (live : broker.streams[stream]? = some ⟨index, true⟩)
    (polled : (broker.poll stream).1 = .ended) :
    broker.history [.next stream] = [.ended index stream] := by
  simp only [history, incidents, live, polled, List.append_nil]

end Next

theorem performAll_append (broker : Broker) (earlier later : List Operation) :
    broker.performAll (earlier ++ later) = (broker.performAll earlier).performAll later :=
  List.foldl_append

theorem history_append (broker : Broker) (earlier later : List Operation) :
    broker.history (earlier ++ later) =
      broker.history earlier ++ (broker.performAll earlier).history later := by
  induction earlier generalizing broker with
  | nil => rfl
  | cons operation rest ih =>
      simp only [List.cons_append, history, ih, List.append_assoc]
      rfl

def Incarnation.join (incarnation : Incarnation) (stream : Nat) : Incarnation :=
  { incarnation with
    line := if stream ∈ incarnation.line then incarnation.line else incarnation.line ++ [stream] }

inductive Shift (before : Broker) : List Incident → Broker → Prop
  | keep {after : Broker} (queues : after.queues = before.queues)
      (incarnations : after.incarnations = before.incarnations)
      (streams : after.streams = before.streams) (published : after.published = before.published) :
      Shift before [] after
  | refuse {queue : String} {after : Broker} (queues : after.queues = before.queues)
      (incarnations : after.incarnations = before.incarnations)
      (streams : after.streams = before.streams) (published : after.published = before.published) :
      Shift before [.refused queue] after
  | begin {queue : String} (absent : before.queues.get? queue = none) :
      Shift before [] { before with
        queues := before.queues.insert queue before.incarnations.length
        incarnations := before.incarnations ++ [⟨queue, [], false, []⟩] }
  | enter {queue : String} {index : Nat} (current : before.queues.get? queue = some index)
      (messageId : Option String) (body : Bytes) :
      Shift before [.published index queue ⟨(before.published + 1).toUInt64, messageId, body⟩]
        (modifyIncarnation { before with published := before.published + 1 } index
          fun incarnation => { incarnation with
            waiting :=
              incarnation.waiting ++ [⟨(before.published + 1).toUInt64, messageId, body⟩] })
  | serve {queue : String} {index : Nat} (current : before.queues.get? queue = some index) :
      Shift before [.opened index queue before.streams.length]
        { before with streams := before.streams ++ [⟨index, true⟩] }
  | take {stream index : Nat} {incarnation : Incarnation} {delivery : Delivery}
      {rest : List Delivery} (live : before.streams[stream]? = some ⟨index, true⟩)
      (held : before.incarnations[index]? = some incarnation)
      (waits : incarnation.waiting = delivery :: rest) :
      Shift before [.yielded index stream delivery]
        (before.modifyIncarnation index fun _ =>
          { incarnation.leave stream with waiting := rest })
  | stand {stream index : Nat} {incarnation : Incarnation}
      (live : before.streams[stream]? = some ⟨index, true⟩)
      (held : before.incarnations[index]? = some incarnation) :
      Shift before [] (before.modifyIncarnation index fun _ => incarnation.join stream)
  | drop {stream : Nat} {stored : Stream} (found : before.streams[stream]? = some stored) :
      Shift before [.dropped stored.incarnation stream] (before.dropStream stream)
  | finish {stream index : Nat} {incarnation : Incarnation}
      (live : before.streams[stream]? = some ⟨index, true⟩)
      (held : before.incarnations[index]? = some incarnation)
      (waits : incarnation.waiting = []) (closed : incarnation.closed = true) :
      Shift before [.ended index stream] (before.dropStream stream)
  | close {queue : String} {index : Nat} (current : before.queues.get? queue = some index) :
      Shift before [.closed index queue] (before.closeQueue queue)

inductive Shifted (first : Broker) : List Incident → Broker → Prop
  | refl : Shifted first [] first
  | step {past incidents : List Incident} {before after : Broker} :
      Shifted first past before → Shift before incidents after →
        Shifted first (past ++ incidents) after

theorem Shift.once {before after : Broker} {incidents : List Incident}
    (shift : Shift before incidents after) : Shifted before incidents after :=
  .step .refl shift

theorem Shifted.trans {first middle last : Broker} {earlier later : List Incident}
    (left : Shifted first earlier middle) (right : Shifted middle later last) :
    Shifted first (earlier ++ later) last := by
  induction right with
  | refl =>
      rw [List.append_nil]
      exact left
  | step _ shift ih =>
      rw [← List.append_assoc]
      exact ih.step shift

section Operations

variable (broker : Broker)

theorem shifted_incarnate (queue : String) :
    Shifted broker [] (broker.incarnate queue).2 := by
  unfold incarnate
  cases found : broker.queues.get? queue with
  | some index => exact .refl
  | none => exact (Shift.begin found).once

theorem shifted_publish (queue : String) (messageId : Option String) (body : Bytes) :
    Shifted broker (broker.incidents (.publish queue messageId body))
      (broker.publish queue messageId body).2 := by
  have begun := broker.shifted_incarnate queue
  have entered := (Shift.enter (broker.incarnate_current queue) messageId body).once
  have shifted := begun.trans entered
  revert shifted
  simp only [incidents, publish, incarnate, List.nil_append]
  cases broker.queues.get? queue <;> exact id

theorem shifted_publishTask (ids : Nat → MessageId) (queue : String) (param : TaskParam) :
    Shifted broker (broker.incidents (.publishTask ids queue param))
      (broker.publishTask ids queue param).2.2 := by
  let counted : Broker := { broker with identified := broker.identified + 1 }
  have kept : Shifted broker [] counted := Shift.once (.keep rfl rfl rfl rfl)
  have published := counted.shifted_publish queue (some (ids broker.identified).text)
    (Payload.encode param)
  have shifted := kept.trans published
  revert shifted
  simp only [counted, incidents, incarnate, List.nil_append]
  cases broker.queues.get? queue <;> exact id

theorem shifted_consume (queue consumerTag : String) (options : ConsumeOptions) :
    Shifted broker (broker.incidents (.consume queue consumerTag options))
      (broker.consume queue consumerTag options).2 := by
  by_cases failing : 0 < broker.failingConsumes
  · simp only [incidents, consume, if_pos failing]
    exact Shift.once (.refuse rfl rfl rfl rfl)
  · let listed : Broker := { broker with
      consumeCalls := broker.consumeCalls + 1
      opened := broker.opened ++ [⟨queue, consumerTag, options⟩] }
    have kept : Shifted broker [] listed := Shift.once (.keep rfl rfl rfl rfl)
    have begun := kept.trans (listed.shifted_incarnate queue)
    have served := begun.trans (Shift.serve (listed.incarnate_current queue)).once
    revert served
    simp only [listed, incidents, consume, if_neg failing, incarnate, List.nil_append]
    cases broker.queues.get? queue <;> exact id

theorem shifted_dropStream (stream : Nat) :
    Shifted broker (broker.incidents (.drop stream)) (broker.dropStream stream) := by
  simp only [incidents, source?]
  cases found : broker.streams[stream]? with
  | some stored => exact (Shift.drop found).once
  | none =>
      unfold dropStream
      rw [found]
      exact .refl

theorem shifted_closeQueue (queue : String) :
    Shifted broker (broker.incidents (.closeQueue queue)) (broker.closeQueue queue) := by
  simp only [incidents]
  cases found : broker.queues.get? queue with
  | some index => exact (Shift.close found).once
  | none =>
      unfold closeQueue
      rw [found]
      exact .refl

theorem shifted_terminate (tag : UInt64) (termination : Termination) :
    Shifted broker [] (broker.terminate tag termination).2 := by
  unfold terminate
  split <;> exact Shift.once (.keep rfl rfl rfl rfl)

theorem consume_effect (queue consumerTag : String) (options : ConsumeOptions) :
    (broker.consume queue consumerTag options).2.consumeCalls = broker.consumeCalls + 1 ∧
      (broker.consume queue consumerTag options).2.opened = broker.opened ++
        match (broker.consume queue consumerTag options).1 with
        | .ok _ => [⟨queue, consumerTag, options⟩]
        | .error _ => [] := by
  unfold consume
  by_cases failing : 0 < broker.failingConsumes
  · simp only [if_pos failing, List.append_nil, and_self]
  · simp only [if_neg failing, incarnate]
    cases broker.queues.get? queue <;> exact ⟨rfl, rfl⟩

theorem consume_live {queue consumerTag : String} {options : ConsumeOptions} {stream : Nat}
    (opened : (broker.consume queue consumerTag options).1 = .ok stream) :
    (broker.consume queue consumerTag options).2.streams[stream]? =
      some ⟨(broker.incarnate queue).1, true⟩ := by
  unfold consume at opened ⊢
  by_cases failing : 0 < broker.failingConsumes
  · simp [failing] at opened
  · simp only [if_neg failing, incarnate] at opened ⊢
    obtain rfl := Except.ok.inj opened
    split <;> exact List.getElem?_concat_length

theorem perform_other {operation : Operation} (other : operation.isConsume = false) :
    (broker.perform operation).consumeCalls = broker.consumeCalls ∧
      (broker.perform operation).opened = broker.opened := by
  cases operation with
  | consume queue consumerTag options => simp [Operation.isConsume] at other
  | publish queue messageId body | publishTask ids queue param =>
      simp only [perform, publishTask, publishOutbound, publish, incarnate]
      cases broker.queues.get? queue <;> exact ⟨rfl, rfl⟩
  | next stream =>
      rcases poll_cases broker stream with ended | ⟨index, live, incarnation, _, _, polled⟩
      · simp only [perform, ended, and_self]
      · rw [perform, polled]
        exact ⟨rfl, rfl⟩
  | drop stream =>
      simp only [perform, dropStream]
      split <;> exact ⟨rfl, rfl⟩
  | terminate tag termination =>
      simp only [perform, terminate]
      split <;> exact ⟨rfl, rfl⟩
  | closeQueue queue =>
      simp only [perform, closeQueue]
      split <;> exact ⟨rfl, rfl⟩
  | failConsumes count => exact ⟨rfl, rfl⟩
  | failTerminations count => exact ⟨rfl, rfl⟩

theorem incidents_other {operation : Operation} (other : operation.isConsume = false)
    {incident : Incident} (known : incident ∈ broker.incidents operation) :
    incident.isAttempt = false := by
  cases operation with
  | consume queue consumerTag options => simp [Operation.isConsume] at other
  | publish queue messageId body | publishTask ids queue param =>
      rw [List.mem_singleton.mp known]
      rfl
  | next stream =>
      simp only [incidents] at known
      split at known
      · rw [List.mem_singleton.mp known]
        rfl
      · rw [List.mem_singleton.mp known]
        rfl
      · simp at known
  | drop stream | closeQueue queue =>
      obtain ⟨index, _, rfl⟩ := List.mem_map.mp known
      rfl
  | _ => simp [incidents] at known

theorem countP_isAttempt (past : List Incident) :
    past.countP Incident.isAttempt =
      past.countP Incident.isRefused + past.countP Incident.isOpened := by
  induction past with
  | nil => rfl
  | cons incident rest ih =>
      simp only [List.countP_cons, ih]
      cases incident <;> simp only [Incident.isAttempt, Incident.isRefused, Incident.isOpened,
        Bool.or_false, Bool.or_true, Bool.false_eq_true, if_true, if_false] <;> omega

theorem consumeCalls_performAll (operations : List Operation) :
    (broker.performAll operations).consumeCalls =
      broker.consumeCalls + (broker.history operations).countP Incident.isAttempt := by
  induction operations generalizing broker with
  | nil => rfl
  | cons operation rest ih =>
      have head : (broker.perform operation).consumeCalls = broker.consumeCalls +
          (broker.incidents operation).countP Incident.isAttempt := by
        cases isConsume : operation.isConsume with
        | false =>
            have quiet : (broker.incidents operation).countP Incident.isAttempt = 0 := by
              rw [List.countP_eq_zero]
              intro incident known
              simp [broker.incidents_other isConsume known]
            rw [quiet, (broker.perform_other isConsume).1, Nat.add_zero]
        | true =>
            cases operation with
            | consume queue consumerTag options =>
                refine (broker.consume_effect queue consumerTag options).1.trans ?_
                simp only [incidents]
                split <;> rfl
            | _ => simp [Operation.isConsume] at isConsume
      rw [history, List.countP_append, ← Nat.add_assoc, ← head]
      exact ih _

theorem opened_performAll {opening : Opening} {operations : List Operation}
    (asked : ∀ operation ∈ operations, operation.isConsume = true →
      operation = .consume opening.queue opening.consumerTag opening.options) :
    (broker.performAll operations).opened = broker.opened ++
      List.replicate ((broker.history operations).countP Incident.isOpened) opening := by
  induction operations generalizing broker with
  | nil => exact (List.append_nil _).symm
  | cons operation rest ih =>
      have head : (broker.perform operation).opened = broker.opened ++
          List.replicate ((broker.incidents operation).countP Incident.isOpened) opening := by
        cases isConsume : operation.isConsume with
        | false =>
            have quiet : (broker.incidents operation).countP Incident.isOpened = 0 := by
              rw [List.countP_eq_zero]
              intro incident known
              have noAttempt := broker.incidents_other isConsume known
              simp only [Incident.isAttempt, Bool.or_eq_false_iff] at noAttempt
              simp [noAttempt.2]
            rw [quiet, (broker.perform_other isConsume).2]
            exact (List.append_nil _).symm
        | true =>
            rw [asked operation List.mem_cons_self isConsume]
            refine (broker.consume_effect _ _ _).2.trans ?_
            simp only [incidents]
            split <;> rfl
      have later := ih (broker.perform operation) fun operation taken =>
        asked operation (List.mem_cons_of_mem _ taken)
      rw [history, List.countP_append, ← List.replicate_append_replicate, ← List.append_assoc,
        ← head]
      exact later

end Operations

section Poll

variable {broker : Broker} {incarnation : Incarnation} {stream index : Nat}

theorem Incarnation.leave_join (incarnation : Incarnation) (stream : Nat) :
    (incarnation.join stream).leave stream = incarnation.leave stream := by
  unfold join leave
  by_cases stands : stream ∈ incarnation.line <;> simp [stands]

theorem Incarnation.poll_first
    (first : (incarnation.join stream).line.head? = some stream) :
    incarnation.poll stream =
      match incarnation.waiting with
      | delivery :: rest => (.next delivery, { incarnation.leave stream with waiting := rest })
      | [] =>
          if incarnation.closed then (.ended, incarnation.leave stream)
          else (.pending, incarnation.join stream) := by
  have left := incarnation.leave_join stream
  unfold join at first left
  unfold Incarnation.poll join
  rewrite [if_pos first, left]
  cases incarnation.waiting <;> rfl

theorem Incarnation.poll_behind
    (behind : (incarnation.join stream).line.head? ≠ some stream) :
    incarnation.poll stream = (.pending, incarnation.join stream) := by
  unfold join at behind
  unfold Incarnation.poll join
  simp only [if_neg behind]

theorem poll_gone (gone : ∀ index, broker.streams[stream]? ≠ some ⟨index, true⟩) :
    broker.poll stream = (.ended, broker) := by
  unfold poll
  cases found : broker.streams[stream]? with
  | none => rfl
  | some stored =>
      obtain ⟨index, live⟩ := stored
      cases live with
      | false => rfl
      | true => exact absurd found (gone index)

theorem poll_live (live : broker.streams[stream]? = some ⟨index, true⟩)
    (held : broker.incarnations[index]? = some incarnation) :
    broker.poll stream = ((incarnation.poll stream).1,
      if (incarnation.poll stream).1 = .ended then
        { broker with streams := broker.streams.set stream ⟨index, false⟩ }.modifyIncarnation
          index fun _ => (incarnation.poll stream).2
      else broker.modifyIncarnation index fun _ => (incarnation.poll stream).2) := by
  unfold poll
  simp only [live, held, modifyIncarnation, List.set_eq_modify]
  by_cases ended : (incarnation.poll stream).1 = .ended
  · simp only [if_pos ended]
  · simp only [if_neg ended]

theorem source_of_stream {stored : Stream} (found : broker.streams[stream]? = some stored) :
    broker.source? stream = some stored.incarnation := by
  rw [source?, found]
  rfl

theorem dropStream_held (found : broker.source? stream = some index)
    (held : broker.incarnations[index]? = some incarnation) :
    broker.dropStream stream =
      { broker with streams := broker.streams.set stream ⟨index, false⟩ }.modifyIncarnation
        index fun _ => incarnation.leave stream := by
  obtain ⟨stored, known, rfl⟩ := Option.map_eq_some_iff.mp found
  unfold dropStream modifyIncarnation
  simp only [known, List.modify_eq_set_getElem?, held]
  rfl

theorem poll_outcome (live : broker.streams[stream]? = some ⟨index, true⟩)
    (held : broker.incarnations[index]? = some incarnation) :
    (∃ delivery rest, incarnation.waiting = delivery :: rest ∧
      broker.poll stream = (.next delivery, broker.modifyIncarnation index fun _ =>
        { incarnation.leave stream with waiting := rest })) ∨
    (incarnation.waiting = [] ∧ incarnation.closed = true ∧
      broker.poll stream = (.ended, broker.dropStream stream)) ∨
    (((incarnation.join stream).line.head? = some stream →
        incarnation.waiting = [] ∧ incarnation.closed = false) ∧
      broker.poll stream =
        (.pending, broker.modifyIncarnation index fun _ => incarnation.join stream)) := by
  rw [poll_live live held]
  by_cases first : (incarnation.join stream).line.head? = some stream
  · rw [Incarnation.poll_first first]
    cases waits : incarnation.waiting with
    | cons delivery rest => exact Or.inl ⟨delivery, rest, rfl, rfl⟩
    | nil =>
        right
        cases closed : incarnation.closed with
        | true =>
            have dropped := dropStream_held (source_of_stream live) held
            exact Or.inl ⟨rfl, rfl, by rw [dropped]; rfl⟩
        | false => exact Or.inr ⟨fun _ => ⟨rfl, rfl⟩, rfl⟩
  · rw [Incarnation.poll_behind first]
    exact Or.inr (Or.inr ⟨fun isFirst => absurd isFirst first, rfl⟩)

theorem shifted_next (hosted : ∀ stored, broker.streams[stream]? = some stored →
      ∃ incarnation, broker.incarnations[stored.incarnation]? = some incarnation) :
    Shifted broker (broker.incidents (.next stream)) (broker.poll stream).2 := by
  simp only [incidents]
  by_cases gone : ∀ index, broker.streams[stream]? ≠ some ⟨index, true⟩
  · rw [poll_gone gone]
    cases found : broker.streams[stream]? with
    | none => exact .refl
    | some stored =>
        obtain ⟨index, live⟩ := stored
        cases live with
        | false => exact .refl
        | true => exact absurd found (gone index)
  · obtain ⟨index, live⟩ := not_forall_not.mp gone
    obtain ⟨incarnation, held⟩ := hosted _ live
    rcases poll_outcome live held with
      ⟨delivery, rest, waits, polled⟩ | ⟨waits, closed, polled⟩ | ⟨_, polled⟩
    · simp only [live, polled]
      exact (Shift.take live held waits).once
    · simp only [live, polled]
      exact (Shift.finish live held waits closed).once
    · simp only [live, polled]
      exact (Shift.stand live held).once

end Poll

/-- The names stand for the incarnations that are not closed, and the streams in a line are live
streams of that incarnation. -/
structure InOrder (broker : Broker) : Prop where
  current : ∀ queue index, broker.queues.get? queue = some index →
    ∃ incarnation, broker.incarnations[index]? = some incarnation ∧ incarnation.queue = queue ∧
      incarnation.closed = false
  standing : ∀ (index : Nat) (incarnation : Incarnation),
    broker.incarnations[index]? = some incarnation → incarnation.closed = false →
      broker.queues.get? incarnation.queue = some index
  hosted : ∀ (stream : Nat) (stored : Stream), broker.streams[stream]? = some stored →
    ∃ incarnation, broker.incarnations[stored.incarnation]? = some incarnation
  lined : ∀ (index : Nat) (incarnation : Incarnation),
    broker.incarnations[index]? = some incarnation →
      ∀ stream ∈ incarnation.line, broker.streams[stream]? = some ⟨index, true⟩

section InOrder

variable {broker : Broker} {index : Nat}

theorem InOrder.empty : InOrder empty := by
  constructor
  · intro queue index current
    simp [Broker.empty] at current
  · intro index incarnation held
    simp [Broker.empty] at held
  · intro stream stored found
    simp [Broker.empty] at found
  · intro index incarnation held
    simp [Broker.empty] at held

theorem held_modify {change : Incarnation → Incarnation} {other : Nat} {old : Incarnation}
    (held : broker.incarnations[other]? = some old) :
    (broker.modifyIncarnation index change).incarnations[other]? =
      some (if index = other then change old else old) := by
  simp [modifyIncarnation, List.getElem?_modify, held]

theorem modify_held {change : Incarnation → Incarnation} {other : Nat} {later : Incarnation}
    (held : (broker.modifyIncarnation index change).incarnations[other]? = some later) :
    ∃ old, broker.incarnations[other]? = some old ∧
      later = if index = other then change old else old := by
  simp only [modifyIncarnation, List.getElem?_modify] at held
  obtain ⟨old, heldOld, changed⟩ := Option.map_eq_some_iff.mp held
  exact ⟨old, heldOld, changed.symm⟩

theorem InOrder.modify {change : Incarnation → Incarnation} (order : broker.InOrder)
    (keeps : ∀ incarnation, broker.incarnations[index]? = some incarnation →
      (change incarnation).queue = incarnation.queue ∧
        (change incarnation).closed = incarnation.closed)
    (lined : ∀ incarnation, broker.incarnations[index]? = some incarnation →
      ∀ stream ∈ (change incarnation).line, broker.streams[stream]? = some ⟨index, true⟩) :
    (broker.modifyIncarnation index change).InOrder := by
  constructor
  · intro queue other current
    obtain ⟨incarnation, held, named, isOpen⟩ := order.current queue other current
    refine ⟨_, held_modify held, ?_⟩
    by_cases here : index = other
    · subst other
      rw [if_pos rfl]
      obtain ⟨sameQueue, sameClosed⟩ := keeps incarnation held
      exact ⟨sameQueue.trans named, sameClosed.trans isOpen⟩
    · rw [if_neg here]
      exact ⟨named, isOpen⟩
  · intro other later held isOpen
    obtain ⟨incarnation, heldOld, rfl⟩ := modify_held held
    by_cases here : index = other
    · subst other
      rw [if_pos rfl] at isOpen ⊢
      obtain ⟨sameQueue, sameClosed⟩ := keeps incarnation heldOld
      rw [sameQueue]
      exact order.standing index incarnation heldOld (sameClosed.symm.trans isOpen)
    · rw [if_neg here] at isOpen ⊢
      exact order.standing other incarnation heldOld isOpen
  · intro stream stored found
    obtain ⟨incarnation, held⟩ := order.hosted stream stored found
    exact ⟨_, held_modify held⟩
  · intro other later held stream stands
    obtain ⟨incarnation, heldOld, rfl⟩ := modify_held held
    by_cases here : index = other
    · subst other
      rw [if_pos rfl] at stands
      exact lined incarnation heldOld stream stands
    · rw [if_neg here] at stands
      exact order.lined other incarnation heldOld stream stands

theorem InOrder.begin {queue : String} (order : broker.InOrder)
    (absent : broker.queues.get? queue = none) :
    InOrder { broker with
      queues := broker.queues.insert queue broker.incarnations.length
      incarnations := broker.incarnations ++ [⟨queue, [], false, []⟩] } := by
  constructor
  · intro name place current
    simp only [Dictionary.get?_insert] at current
    by_cases same : queue = name
    · subst name
      rw [if_pos rfl] at current
      obtain rfl := Option.some.inj current
      exact ⟨_, List.getElem?_concat_length, rfl, rfl⟩
    · rw [if_neg same] at current
      obtain ⟨incarnation, held, named, isOpen⟩ := order.current name place current
      exact ⟨incarnation, getElem?_concat _ held, named, isOpen⟩
  · intro place incarnation held isOpen
    simp only [Dictionary.get?_insert]
    rcases getElem?_concat_cases held with old | ⟨rfl, rfl⟩
    · have standing := order.standing place incarnation old isOpen
      by_cases same : queue = incarnation.queue
      · rw [← same, absent] at standing
        simp at standing
      · rw [if_neg same]
        exact standing
    · rw [if_pos rfl]
  · intro stream stored found
    obtain ⟨incarnation, held⟩ := order.hosted stream stored found
    exact ⟨incarnation, getElem?_concat _ held⟩
  · intro place incarnation held stream stands
    rcases getElem?_concat_cases held with old | ⟨_, rfl⟩
    · exact order.lined place incarnation old stream stands
    · simp at stands

theorem InOrder.serve {queue : String} (order : broker.InOrder)
    (current : broker.queues.get? queue = some index) :
    InOrder { broker with streams := broker.streams ++ [⟨index, true⟩] } := by
  refine ⟨order.current, order.standing, ?_, ?_⟩
  · intro stream stored found
    rcases getElem?_concat_cases found with old | ⟨_, rfl⟩
    · exact order.hosted stream stored old
    · obtain ⟨incarnation, held, _⟩ := order.current queue index current
      exact ⟨incarnation, held⟩
  · intro place incarnation held stream stands
    exact getElem?_concat _ (order.lined place incarnation held stream stands)

theorem InOrder.drop {stream : Nat} {stored : Stream} (order : broker.InOrder)
    (found : broker.streams[stream]? = some stored) : (broker.dropStream stream).InOrder := by
  have left : (broker.modifyIncarnation stored.incarnation fun incarnation =>
      incarnation.leave stream).InOrder := by
    refine order.modify (fun _ _ => ⟨rfl, rfl⟩) ?_
    intro incarnation held other stands
    exact order.lined _ incarnation held other (List.mem_filter.mp stands).1
  unfold dropStream
  rw [found]
  refine ⟨left.current, left.standing, ?_, ?_⟩
  · intro other later foundLater
    simp only [modifyIncarnation, List.getElem?_set] at foundLater
    split at foundLater
    · split at foundLater
      · obtain rfl := Option.some.inj foundLater
        exact left.hosted stream stored found
      · simp at foundLater
    · exact left.hosted other later foundLater
  · intro place incarnation held other stands
    have known := left.lined place incarnation held other stands
    have different : stream ≠ other := by
      rintro rfl
      obtain ⟨old, heldOld, rfl⟩ := modify_held held
      have here : stored.incarnation = place := by
        rw [modifyIncarnation, found] at known
        rw [Option.some.inj known]
      rw [if_pos here] at stands
      simp [Incarnation.leave] at stands
    simp only [modifyIncarnation, List.getElem?_set, if_neg different]
    exact known

theorem InOrder.close {queue : String} (order : broker.InOrder)
    (current : broker.queues.get? queue = some index) : (broker.closeQueue queue).InOrder := by
  obtain ⟨ending, heldEnding, namedEnding, _⟩ := order.current queue index current
  unfold closeQueue
  rw [current]
  constructor
  · intro name other known
    simp only [modifyIncarnation, Dictionary.get?_erase] at known
    split at known
    · simp at known
    · rename_i different
      obtain ⟨incarnation, held, named, isOpen⟩ := order.current name other known
      have apart : index ≠ other := by
        rintro rfl
        obtain rfl := Option.some.inj (held.symm.trans heldEnding)
        exact different (namedEnding.symm.trans named)
      refine ⟨incarnation, ?_, named, isOpen⟩
      simp [modifyIncarnation, held, apart]
  · intro other later held isOpen
    obtain ⟨incarnation, heldOld, rfl⟩ := modify_held held
    by_cases here : index = other
    · simp [here] at isOpen
    · rw [if_neg here] at isOpen ⊢
      have standing := order.standing other incarnation heldOld isOpen
      have different : queue ≠ incarnation.queue := by
        rintro rfl
        exact here (Option.some.inj (current.symm.trans standing))
      simpa only [modifyIncarnation, Dictionary.get?_erase, if_neg different] using standing
  · intro stream stored found
    obtain ⟨incarnation, held⟩ := order.hosted stream stored found
    exact ⟨_, held_modify held⟩
  · intro other later held stream stands
    obtain ⟨incarnation, heldOld, rfl⟩ := modify_held held
    refine order.lined other incarnation heldOld stream ?_
    by_cases here : index = other
    · rwa [if_pos here] at stands
    · rwa [if_neg here] at stands

theorem Incarnation.mem_join {incarnation : Incarnation} {stream other : Nat}
    (stands : other ∈ (incarnation.join stream).line) :
    other = stream ∨ other ∈ incarnation.line := by
  unfold join at stands
  split at stands
  · exact Or.inr stands
  · rcases List.mem_append.mp stands with old | new
    · exact Or.inr old
    · exact Or.inl (List.mem_singleton.mp new)

theorem Shift.inOrder {before after : Broker} {incidents : List Incident}
    (shift : Shift before incidents after) (order : before.InOrder) : after.InOrder := by
  cases shift with
  | keep queues incarnations streams _ | refuse queues incarnations streams _ =>
      obtain ⟨current, standing, hosted, lined⟩ := order
      rw [← queues, ← incarnations] at current standing
      rw [← streams, ← incarnations] at hosted lined
      exact ⟨current, standing, hosted, lined⟩
  | begin absent => exact order.begin absent
  | enter current messageId body =>
      have counted : InOrder { before with published := before.published + 1 } :=
        ⟨order.current, order.standing, order.hosted, order.lined⟩
      exact counted.modify (fun _ _ => ⟨rfl, rfl⟩) (order.lined _)
  | serve current => exact order.serve current
  | take live held waits =>
      refine order.modify ?_ ?_
      · intro incarnation heldOld
        obtain rfl := Option.some.inj (held.symm.trans heldOld)
        exact ⟨rfl, rfl⟩
      · intro _ _ other stands
        exact order.lined _ _ held other (List.mem_filter.mp stands).1
  | stand live held =>
      refine order.modify ?_ ?_
      · intro incarnation heldOld
        obtain rfl := Option.some.inj (held.symm.trans heldOld)
        exact ⟨rfl, rfl⟩
      · intro _ _ other stands
        rcases Incarnation.mem_join stands with rfl | old
        · exact live
        · exact order.lined _ _ held other old
  | drop found => exact order.drop found
  | finish live _ _ _ => exact order.drop live
  | close current => exact order.close current

theorem Shifted.inOrder {first last : Broker} {past : List Incident}
    (shifted : Shifted first past last) (order : first.InOrder) : last.InOrder := by
  induction shifted with
  | refl => exact order
  | step _ shift ih => exact shift.inOrder ih

theorem InOrder.shifted (order : broker.InOrder) (operation : Operation) :
    Shifted broker (broker.incidents operation) (broker.perform operation) := by
  cases operation with
  | publish queue messageId body => exact broker.shifted_publish queue messageId body
  | publishTask ids queue param => exact broker.shifted_publishTask ids queue param
  | consume queue consumerTag options => exact broker.shifted_consume queue consumerTag options
  | next stream => exact shifted_next (order.hosted stream)
  | drop stream => exact broker.shifted_dropStream stream
  | terminate tag termination => exact broker.shifted_terminate tag termination
  | closeQueue queue => exact broker.shifted_closeQueue queue
  | failConsumes count => exact Shift.once (.keep rfl rfl rfl rfl)
  | failTerminations count => exact Shift.once (.keep rfl rfl rfl rfl)

theorem InOrder.shifted_history (order : broker.InOrder) (operations : List Operation) :
    Shifted broker (broker.history operations) (broker.performAll operations) := by
  induction operations generalizing broker with
  | nil => exact .refl
  | cons operation rest ih =>
      have head := order.shifted operation
      exact head.trans (ih (head.inOrder order))

end InOrder

end TaskQueue.Broker
