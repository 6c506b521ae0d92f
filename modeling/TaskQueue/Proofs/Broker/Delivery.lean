import Mathlib.Data.List.Nodup
import Mathlib.Data.List.Perm.Basic
import TaskQueue.Proofs.Broker.Incarnations

/-!
What becomes of each message that is published to a broker, while operations go on in any order and
over any queues. A message is brought once at most, and only by a stream that was opened on its
incarnation. What is left when an incarnation is closed and has no stream any more is lost; nothing
else is.
-/

namespace TaskQueue.Broker

section Beginning

variable {last : Broker} {past : List Incident} {index : Nat}

theorem Shifted.account (shifted : Shifted empty past last) (index : Nat) :
    picked index (arrivals past) = picked index (yields past) ++ last.waitingAt index :=
  shifted.flow .empty index

theorem Shifted.arrived_of_yielded (shifted : Shifted empty past last) {delivery : Delivery}
    (yielded : (index, delivery) ∈ yields past) : (index, delivery) ∈ arrivals past := by
  have account := shifted.account index
  refine mem_picked.mp ?_
  rw [account]
  exact List.mem_append_left _ (mem_picked.mpr yielded)

theorem Shifted.arrived_bound (shifted : Shifted empty past last) {arrival : Nat × Delivery}
    (arrived : arrival ∈ arrivals past) : arrival.1 < last.incarnations.length := by
  obtain ⟨queue, known⟩ := mem_arrivals.mp arrived
  have named := shifted.holds .empty known
  obtain ⟨incarnation, held, _⟩ := Option.map_eq_some_iff.mp named
  exact (List.getElem?_eq_some_iff.mp held).1

theorem Shifted.conserved (shifted : Shifted empty past last) :
    ((arrivals past).map Prod.snd).Perm ((yields past).map Prod.snd ++
      (List.range last.incarnations.length).flatMap last.waitingAt) := by
  have came := perm_flatMap_range fun arrival arrived => shifted.arrived_bound arrived
  have went := perm_flatMap_range fun (yielded : Nat × Delivery) (known : yielded ∈ yields past) =>
    shifted.arrived_bound (shifted.arrived_of_yielded known)
  have split : ((List.range last.incarnations.length).flatMap fun index =>
        (arrivals past).filterMap fun value => if value.1 = index then some value.2 else none) =
      (List.range last.incarnations.length).flatMap fun index =>
        picked index (yields past) ++ last.waitingAt index :=
    congrArg (List.range last.incarnations.length).flatMap (funext shifted.account)
  rw [split] at came
  exact came.trans ((List.flatMap_append_perm _ _ _).symm.trans (went.symm.append_right _))

theorem Shifted.tags (shifted : Shifted empty past last)
    (few : (arrivals past).length < UInt64.size) :
    (arrivals past).map (fun arrival => arrival.2.tag.toNat) =
      List.range' 1 (arrivals past).length := by
  have numbered := congrArg (List.map UInt64.toNat) shifted.numbered.1
  rw [List.map_map, List.map_map] at numbered
  refine numbered.trans ((List.map_congr_left ?_).trans (List.map_id _))
  intro number taken
  obtain ⟨_, bound⟩ := List.mem_range'_1.mp taken
  have small : number < UInt64.size := by
    have none : empty.published = 0 := rfl
    omega
  exact Nat.mod_eq_of_lt small

theorem Shifted.apart (shifted : Shifted empty past last)
    (few : (arrivals past).length < UInt64.size) :
    ((yields past).map (fun yielded => yielded.2.tag) ++
      ((List.range last.incarnations.length).flatMap last.waitingAt).map Delivery.tag).Nodup := by
  have numbers : ((arrivals past).map fun arrival => arrival.2.tag.toNat).Nodup := by
    rw [shifted.tags few]
    exact List.nodup_range'
  have tags : (((arrivals past).map Prod.snd).map Delivery.tag).Nodup := by
    rw [List.map_map]
    refine List.Nodup.of_map UInt64.toNat ?_
    rw [List.map_map]
    exact numbers
  have moved := (shifted.conserved.map Delivery.tag).nodup_iff.mp tags
  rw [List.map_append, List.map_map] at moved
  exact moved

end Beginning

section Closing

variable {broker : Broker} {stream index : Nat}

/-- What a stream answers when it is asked again and again. -/
def draws (broker : Broker) (stream : Nat) : Nat → List Polled
  | 0 => []
  | count + 1 => (broker.poll stream).1 :: (broker.poll stream).2.draws stream count

theorem Incarnation.head?_join {incarnation : Incarnation} :
    (incarnation.join stream).line.head? = some stream ∨
      ∃ other ∈ incarnation.line, other ≠ stream := by
  unfold join
  cases line : incarnation.line with
  | nil => exact Or.inl rfl
  | cons first rest =>
      by_cases same : first = stream
      · simp [same]
      · exact Or.inr ⟨first, List.mem_cons_self, same⟩

/-- A live stream brings the first of what waits. When nothing waits it ends if the incarnation is
closed. It has to wait only for a message, or for another stream that is to be asked first. -/
theorem InOrder.answer (order : broker.InOrder)
    (live : broker.streams[stream]? = some ⟨index, true⟩) :
    (∃ delivery rest, broker.waitingAt index = delivery :: rest ∧
      (broker.poll stream).1 = .next delivery ∧
      (broker.poll stream).2.waitingAt index = rest ∧
      (broker.poll stream).2.streams = broker.streams) ∨
    (broker.waitingAt index = [] ∧ broker.Closed index ∧ (broker.poll stream).1 = .ended) ∨
    ((broker.poll stream).1 = .pending ∧
      (broker.waitingAt index = [] ∧ ¬broker.Closed index ∨
        ∃ other : Nat, other ≠ stream ∧ broker.streams[other]? = some ⟨index, true⟩)) := by
  obtain ⟨incarnation, held⟩ := order.hosted stream _ live
  rw [waitingAt_held held]
  rcases poll_outcome live held with
    ⟨delivery, rest, waits, polled⟩ | ⟨nothing, ended, polled⟩ | ⟨standing, polled⟩
  · rw [polled]
    refine Or.inl ⟨delivery, rest, waits, rfl, ?_, rfl⟩
    refine (waitingAt_held (held_modify held)).trans ?_
    rw [if_pos rfl]
  · rw [polled]
    exact Or.inr (Or.inl ⟨nothing, (order.closed_iff held).mpr ended, rfl⟩)
  · rw [polled]
    rcases incarnation.head?_join with first | ⟨other, stands, different⟩
    · obtain ⟨nothing, isOpen⟩ := standing first
      refine Or.inr (Or.inr ⟨rfl, Or.inl ⟨nothing, ?_⟩⟩)
      rw [order.closed_iff held, isOpen]
      simp
    · have liveOther := order.lined index incarnation held other stands
      exact Or.inr (Or.inr ⟨rfl, Or.inr ⟨other, different, liveOther⟩⟩)

theorem InOrder.nothing_of_ended (order : broker.InOrder)
    (live : broker.streams[stream]? = some ⟨index, true⟩)
    (polled : (broker.poll stream).1 = .ended) : broker.waitingAt index = [] := by
  rcases order.answer live with ⟨_, _, _, next, _⟩ | ⟨nothing, _⟩ | ⟨pending, _⟩
  · rw [polled] at next
    simp at next
  · exact nothing
  · rw [polled] at pending
    simp at pending

theorem InOrder.draws_closed (order : broker.InOrder)
    (live : broker.streams[stream]? = some ⟨index, true⟩) (closed : broker.Closed index)
    (alone : ∀ other : Nat, broker.streams[other]? = some ⟨index, true⟩ → other = stream) :
    broker.draws stream ((broker.waitingAt index).length + 1) =
      (broker.waitingAt index).map .next ++ [.ended] := by
  generalize waits : broker.waitingAt index = waiting
  have noOther : ¬∃ other : Nat, other ≠ stream ∧ broker.streams[other]? = some ⟨index, true⟩ := by
    rintro ⟨other, different, liveOther⟩
    exact different (alone other liveOther)
  induction waiting generalizing broker with
  | nil =>
      rcases order.answer live with
        ⟨delivery, rest, some, _⟩ | ⟨_, _, polled⟩ | ⟨_, ⟨_, isOpen⟩ | other⟩
      · rw [waits] at some
        simp at some
      · exact congrArg (fun first => [first]) polled
      · exact absurd closed isOpen
      · exact absurd other noOther
  | cons delivery rest ih =>
      rcases order.answer live with
        ⟨first, others, some, polled, left, streams⟩ | ⟨nothing, _⟩ | ⟨_, ⟨_, isOpen⟩ | other⟩
      · obtain ⟨rfl, rfl⟩ := List.cons.inj (waits.symm.trans some)
        have shifted := order.shifted (.next stream)
        have stays := (shifted.closed order closed).1
        have later := ih (shifted.inOrder order) (streams ▸ live) stays (streams ▸ alone) left
          (streams ▸ noOther)
        exact congrArg₂ List.cons polled later
      · rw [waits] at nothing
        simp at nothing
      · exact absurd closed isOpen
      · exact absurd other noOther

theorem InOrder.renewed (order : broker.InOrder) {queue : String} {operations : List Operation}
    {delivery : Delivery}
    (published : .published index queue delivery ∈ (broker.closeQueue queue).history operations) :
    broker.incarnations.length ≤ index := by
  by_contra older
  have closing := broker.shifted_closeQueue queue
  have orderClosed := closing.inOrder order
  have later := orderClosed.shifted_history operations
  have held := List.getElem?_eq_getElem (Nat.lt_of_not_le older)
  generalize broker.incarnations[index] = incarnation at held
  have named : broker.name? index = some incarnation.queue := by rw [name?, held]; rfl
  have grown := (closing.trans later).grows order
  have isQueue := later.holds orderClosed published
  have same := Option.some.inj ((grown.names index _ named).symm.trans isQueue)
  subst same
  have closed := order.closed_closeQueue named
  have nothing := (later.closed orderClosed closed).2
  have arrived := mem_picked.mpr (mem_arrivals.mpr ⟨_, published⟩)
  rw [nothing] at arrived
  simp at arrived

end Closing

theorem consume_error {broker later : Broker} {queue consumerTag : String}
    {options : ConsumeOptions} {error : TransportError}
    (refused : broker.consume queue consumerTag options = (.error error, later)) :
    0 < broker.failingConsumes ∧ later =
      { broker with
        consumeCalls := broker.consumeCalls + 1
        failingConsumes := broker.failingConsumes - 1 } := by
  unfold consume at refused
  by_cases failing : 0 < broker.failingConsumes
  · simp only [if_pos failing, Prod.mk.injEq] at refused
    exact ⟨failing, refused.2.symm⟩
  · simp [failing] at refused

theorem terminate_error {broker later : Broker} {tag : UInt64} {termination : Termination}
    {error : TransportError} (refused : broker.terminate tag termination = (.error error, later)) :
    0 < broker.failingTerminations ∧
      later = { broker with failingTerminations := broker.failingTerminations - 1 } := by
  unfold terminate at refused
  by_cases failing : 0 < broker.failingTerminations
  · simp only [if_pos failing, Prod.mk.injEq] at refused
    exact ⟨failing, refused.2.symm⟩
  · simp [failing] at refused

def Waits (broker : Broker) (index : Nat) (tag : UInt64) : Prop :=
  tag ∈ (broker.waitingAt index).map Delivery.tag ∧ ¬broker.Abandoned index

def Lost (broker : Broker) (index : Nat) (tag : UInt64) : Prop :=
  tag ∈ (broker.waitingAt index).map Delivery.tag ∧ broker.Abandoned index

def Yielded (past : List Incident) (tag : UInt64) : Prop :=
  tag ∈ (yields past).map fun yielded => yielded.2.tag

def OneOf (first second third : Prop) : Prop :=
  (first ∧ ¬second ∧ ¬third) ∨ (¬first ∧ second ∧ ¬third) ∨ (¬first ∧ ¬second ∧ third)

/-- What holds of a broker, of its past and of all that is still to come. -/
structure Faithful (publications : Nat) (past : List Incident) (broker : Broker) : Prop where
  numbered : (arrivals past).map (fun arrival => arrival.2.tag.toNat) =
    List.range' 1 publications
  once : ((yields past).map fun yielded => yielded.2.tag).Nodup
  sourced : ∀ index stream delivery, .yielded index stream delivery ∈ past →
    ∃ queue, .opened index queue stream ∈ past ∧ .published index queue delivery ∈ past ∧
      ∀ place name, .opened place name stream ∈ past → place = index ∧ name = queue
  ordered : ∀ index, picked index (yields past) <+: picked index (arrivals past)
  placed : ∀ index queue delivery, .published index queue delivery ∈ past →
    OneOf (broker.Waits index delivery.tag) (Yielded past delivery.tag)
      (broker.Lost index delivery.tag)
  lost : ∀ later index tag, broker.Lost index tag → (broker.performAll later).Lost index tag
  answers : ∀ stream index, broker.streams[stream]? = some ⟨index, true⟩ →
    (∃ delivery rest, broker.waitingAt index = delivery :: rest ∧
      (broker.poll stream).1 = .next delivery) ∨
    (broker.waitingAt index = [] ∧ broker.Closed index ∧ (broker.poll stream).1 = .ended) ∨
    ((broker.poll stream).1 = .pending ∧
      (broker.waitingAt index = [] ∧ ¬broker.Closed index ∨
        ∃ other : Nat, other ≠ stream ∧ broker.streams[other]? = some ⟨index, true⟩))
  ended : ∀ index stream, .ended index stream ∈ past →
    broker.Closed index ∧ picked index (yields past) = picked index (arrivals past)
  emptied : ∀ stream index, broker.streams[stream]? = some ⟨index, true⟩ → broker.Closed index →
    (∀ other : Nat, broker.streams[other]? = some ⟨index, true⟩ → other = stream) →
    broker.draws stream ((broker.waitingAt index).length + 1) =
      (broker.waitingAt index).map .next ++ [.ended]
  renewed : ∀ queue later index delivery,
    .published index queue delivery ∈ (broker.closeQueue queue).history later →
    broker.incarnations.length ≤ index
  refused : ∀ queue consumerTag options error later,
    broker.consume queue consumerTag options = (.error error, later) →
    0 < broker.failingConsumes ∧ later =
      { broker with
        consumeCalls := broker.consumeCalls + 1
        failingConsumes := broker.failingConsumes - 1 }
  unrecorded : ∀ tag termination error later,
    broker.terminate tag termination = (.error error, later) →
    0 < broker.failingTerminations ∧
      later = { broker with failingTerminations := broker.failingTerminations - 1 }

section Account

variable {broker : Broker} {past : List Incident} {index : Nat}

theorem length_arrivals (broker : Broker) (operations : List Operation) :
    (arrivals (broker.history operations)).length = operations.countP Operation.publishes := by
  induction operations generalizing broker with
  | nil => rfl
  | cons operation rest ih =>
      have counts : (arrivals (broker.incidents operation)).length =
          if operation.publishes then 1 else 0 := by
        cases operation with
        | consume queue consumerTag options =>
            simp only [incidents]
            split <;> rfl
        | next stream =>
            simp only [incidents]
            split <;> rfl
        | drop stream =>
            simp only [incidents]
            cases broker.source? stream <;> rfl
        | closeQueue queue =>
            simp only [incidents]
            cases broker.queues.get? queue <;> rfl
        | _ => rfl
      rw [history, arrivals_append, List.length_append, ih, counts, List.countP_cons,
        Nat.add_comm]

theorem Shifted.placed (shifted : Shifted empty past broker)
    (few : (arrivals past).length < UInt64.size) {queue : String} {delivery : Delivery}
    (published : .published index queue delivery ∈ past) :
    OneOf (broker.Waits index delivery.tag) (Yielded past delivery.tag)
      (broker.Lost index delivery.tag) := by
  have bound := shifted.arrived_bound (mem_arrivals.mpr ⟨queue, published⟩)
  have apart : delivery.tag ∈ (broker.waitingAt index).map Delivery.tag →
      ¬Yielded past delivery.tag := by
    intro waits yielded
    refine (List.nodup_append.mp (shifted.apart few)).2.2 _ yielded _ ?_ rfl
    obtain ⟨other, waiting, same⟩ := List.mem_map.mp waits
    refine List.mem_map.mpr ⟨other, ?_, same⟩
    exact List.mem_flatMap.mpr ⟨index, List.mem_range.mpr bound, waiting⟩
  have arrived := mem_picked.mpr (mem_arrivals.mpr ⟨queue, published⟩)
  rw [shifted.account index] at arrived
  rcases List.mem_append.mp arrived with went | waiting
  · have yielded : Yielded past delivery.tag :=
      List.mem_map.mpr ⟨_, mem_picked.mp went, rfl⟩
    have notWaiting : delivery.tag ∉ (broker.waitingAt index).map Delivery.tag :=
      fun waits => apart waits yielded
    exact Or.inr (Or.inl ⟨fun waits => notWaiting waits.1, yielded, fun lost => notWaiting lost.1⟩)
  · have waits := List.mem_map_of_mem (f := Delivery.tag) waiting
    have notYielded := apart waits
    by_cases abandoned : broker.Abandoned index
    · exact Or.inr (Or.inr ⟨fun waits => waits.2 abandoned, notYielded, waits, abandoned⟩)
    · exact Or.inl ⟨⟨waits, abandoned⟩, notYielded, fun lost => abandoned lost.2⟩

theorem Shifted.sourced (shifted : Shifted empty past broker) {stream : Nat} {delivery : Delivery}
    (yielded : .yielded index stream delivery ∈ past) :
    ∃ queue, .opened index queue stream ∈ past ∧ .published index queue delivery ∈ past ∧
      ∀ place name, .opened place name stream ∈ past → place = index ∧ name = queue := by
  have source := shifted.holds .empty yielded
  obtain ⟨queue, opened⟩ := shifted.opened rfl source
  obtain ⟨_, isQueue⟩ := shifted.holds .empty opened
  obtain ⟨name, published⟩ :=
    mem_arrivals.mp (shifted.arrived_of_yielded (mem_yields.mpr ⟨stream, yielded⟩))
  have isName := shifted.holds .empty published
  obtain rfl := Option.some.inj (isQueue.symm.trans isName)
  refine ⟨queue, opened, published, ?_⟩
  intro place name other
  obtain ⟨otherSource, otherName⟩ := shifted.holds .empty other
  obtain rfl := Option.some.inj (source.symm.trans otherSource)
  exact ⟨rfl, Option.some.inj (otherName.symm.trans isQueue)⟩

theorem InOrder.lost (order : broker.InOrder) (later : List Operation) {tag : UInt64}
    (lost : broker.Lost index tag) : (broker.performAll later).Lost index tag := by
  obtain ⟨waits, abandoned⟩ := lost
  have shifted := order.shifted_history later
  obtain ⟨stays, nothing⟩ := shifted.abandoned order abandoned
  have left := shifted.waitingAt_closed order abandoned.1
  rw [nothing, List.nil_append] at left
  rw [left] at waits
  exact ⟨waits, stays⟩

/-- A broker neither loses, doubles nor mixes up what is published to it. -/
theorem faithful (operations : List Operation)
    (few : operations.countP Operation.publishes < UInt64.size) :
    Faithful (operations.countP Operation.publishes) (empty.history operations)
      (empty.performAll operations) := by
  have shifted := InOrder.empty.shifted_history operations
  have order := shifted.inOrder .empty
  rw [← length_arrivals empty operations] at few ⊢
  constructor
  case numbered => exact shifted.tags few
  case once => exact (List.nodup_append.mp (shifted.apart few)).1
  case sourced =>
    intro index stream delivery yielded
    exact shifted.sourced yielded
  case ordered =>
    intro index
    rw [shifted.account index]
    exact List.prefix_append _ _
  case placed =>
    intro index queue delivery published
    exact shifted.placed few published
  case lost =>
    intro later index tag lost
    exact order.lost later lost
  case answers =>
    intro stream index live
    rcases order.answer live with ⟨delivery, rest, waits, polled, _⟩ | ended | pending
    · exact Or.inl ⟨delivery, rest, waits, polled⟩
    · exact Or.inr (Or.inl ended)
    · exact Or.inr (Or.inr pending)
  case ended =>
    intro index stream ended
    obtain ⟨closed, nothing⟩ := shifted.holds .empty ended
    have account := shifted.account index
    rw [nothing, List.append_nil] at account
    exact ⟨closed, account.symm⟩
  case emptied =>
    intro stream index live closed alone
    exact order.draws_closed live closed alone
  case renewed =>
    intro queue later index delivery published
    exact order.renewed published
  case refused =>
    intro queue consumerTag options error later refused
    exact consume_error refused
  case unrecorded =>
    intro tag termination error later refused
    exact terminate_error refused

end Account

/-- Two lives of one name. The first is closed while two streams share what waits there; they bring
it all and end. What is published afterwards waits in the second. A third message is lost with the
stream that could have brought it. -/
theorem faithful_reopened :
    let operations : List Operation :=
      [.publish "jobs" (some "a") [], .consume "jobs" "first" .none, .consume "jobs" "second" .none,
        .publish "jobs" none [], .next 0, .closeQueue "jobs", .publish "jobs" (some "c") [],
        .next 1, .next 0, .next 1, .publish "mail" (some "d") [], .consume "mail" "third" .none,
        .closeQueue "mail", .drop 2]
    operations.countP Operation.publishes < UInt64.size ∧
      empty.history operations =
        [.published 0 "jobs" ⟨1, some "a", []⟩, .opened 0 "jobs" 0, .opened 0 "jobs" 1,
          .published 0 "jobs" ⟨2, none, []⟩, .yielded 0 0 ⟨1, some "a", []⟩, .closed 0 "jobs",
          .published 1 "jobs" ⟨3, some "c", []⟩, .yielded 0 1 ⟨2, none, []⟩, .ended 0 0,
          .ended 0 1, .published 2 "mail" ⟨4, some "d", []⟩, .opened 2 "mail" 2,
          .closed 2 "mail", .dropped 2 2] ∧
      Faithful (operations.countP Operation.publishes) (empty.history operations)
        (empty.performAll operations) :=
  ⟨by decide, by decide +kernel, faithful _ (by decide)⟩

end TaskQueue.Broker
