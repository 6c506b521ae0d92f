import Mathlib.Data.List.Basic
import TaskQueue.Broker

/-! What the operations of a broker do to its queues. An incarnation keeps its name and a stream its
incarnation; a delivery enters a queue when it is published, leaves it when a stream takes it, and
is otherwise left where it is. -/

namespace TaskQueue.Broker

inductive Change (before : Broker) : Broker → Prop
  | publish (queue : String) (messageId : Option String) (body : Bytes) :
      Change before (before.publish queue messageId body).2
  | publishTask (ids : Nat → MessageId) (queue : String) (param : TaskParam) :
      Change before (before.publishTask ids queue param).2.2
  | consume (queue consumerTag : String) (options : ConsumeOptions) :
      Change before (before.consume queue consumerTag options).2
  | poll (stream : Nat) : Change before (before.poll stream).2
  | dropStream (stream : Nat) : Change before (before.dropStream stream)
  | closeQueue (queue : String) : Change before (before.closeQueue queue)
  | terminate (tag : UInt64) (termination : Termination) :
      Change before (before.terminate tag termination).2
  | failConsumes (count : Nat) : Change before (before.failConsumes count)
  | failTerminations (count : Nat) : Change before (before.failTerminations count)

inductive Made : Broker → Prop
  | empty : Made empty
  | change {before after : Broker} : Made before → Change before after → Made after

def name? (broker : Broker) (index : Nat) : Option String :=
  broker.incarnations[index]?.map Incarnation.queue

def source? (broker : Broker) (stream : Nat) : Option Nat :=
  broker.streams[stream]?.map Stream.incarnation

def waitingAt (broker : Broker) (index : Nat) : List Delivery :=
  (broker.incarnations[index]?.map Incarnation.waiting).getD []

def waitingIn (broker : Broker) (queue : String) : List Delivery :=
  ((broker.queues.get? queue).map broker.waitingAt).getD []

/-- The current incarnation of a queue is one of that name. -/
def Sound (broker : Broker) : Prop :=
  ∀ queue index, broker.queues.get? queue = some index → broker.name? index = some queue

structure Grows (before after : Broker) : Prop where
  names : ∀ index queue, before.name? index = some queue → after.name? index = some queue
  sources : ∀ stream index, before.source? stream = some index → after.source? stream = some index

theorem Grows.refl (broker : Broker) : Grows broker broker :=
  ⟨fun _ _ named => named, fun _ _ found => found⟩

theorem Grows.trans {first second third : Broker} (left : Grows first second)
    (right : Grows second third) : Grows first third :=
  ⟨fun index queue named => right.names index queue (left.names index queue named),
    fun stream index found => right.sources stream index (left.sources stream index found)⟩

theorem Sound.empty : Sound empty := by
  intro queue index found
  simp [Broker.empty] at found

section Modify

variable {broker : Broker} {index : Nat} {change : Incarnation → Incarnation}

theorem name?_modify (keeps : ∀ incarnation, broker.incarnations[index]? = some incarnation →
      (change incarnation).queue = incarnation.queue) (other : Nat) :
    (broker.modifyIncarnation index change).name? other = broker.name? other := by
  unfold name? modifyIncarnation
  simp only [List.getElem?_modify]
  by_cases same : index = other
  · subst other
    cases found : broker.incarnations[index]? with
    | none => simp
    | some incarnation => simp [keeps incarnation found]
  · simp [same]

theorem grows_modify (keeps : ∀ incarnation, broker.incarnations[index]? = some incarnation →
      (change incarnation).queue = incarnation.queue) :
    Grows broker (broker.modifyIncarnation index change) :=
  ⟨fun other _ named => (name?_modify keeps other).trans named, fun _ _ found => found⟩

theorem sound_modify (keeps : ∀ incarnation, broker.incarnations[index]? = some incarnation →
      (change incarnation).queue = incarnation.queue) (sound : broker.Sound) :
    (broker.modifyIncarnation index change).Sound := by
  intro queue other found
  rw [name?_modify keeps]
  exact sound queue other found

theorem waitingAt_modify (other : Nat) :
    (broker.modifyIncarnation index change).waitingAt other =
      if index = other then
        (broker.incarnations[other]?.map fun incarnation => (change incarnation).waiting).getD []
      else broker.waitingAt other := by
  unfold waitingAt modifyIncarnation
  simp only [List.getElem?_modify]
  by_cases same : index = other
  · cases found : broker.incarnations[other]? <;> simp [same]
  · simp [same]

end Modify

/-- What a change means for one queue: the queue goes on, some deliveries come in at its end and
some leave at its front. -/
structure Balance (queue : String) (before after : Broker) (entered left : List Delivery) :
    Prop where
  grows : Grows before after
  sound : after.Sound
  current : ∀ index, before.queues.get? queue = some index → after.queues.get? queue = some index
  waiting : before.waitingIn queue ++ entered = left ++ after.waitingIn queue

section Balance

variable {broker : Broker} {queue : String}

theorem balance_of_same {after : Broker} (sound : broker.Sound)
    (queues : after.queues = broker.queues)
    (incarnations : after.incarnations = broker.incarnations)
    (sources : ∀ stream index, broker.source? stream = some index →
      after.source? stream = some index) : Balance queue broker after [] [] := by
  have names : after.name? = broker.name? := by
    funext index
    simp [name?, incarnations]
  have waits : after.waitingAt = broker.waitingAt := by
    funext index
    simp [waitingAt, incarnations]
  refine ⟨⟨?_, sources⟩, ?_, ?_, ?_⟩
  · intro index name named
    rw [names]
    exact named
  · intro name index found
    rw [queues] at found
    rw [names]
    exact sound name index found
  · intro index found
    rw [queues]
    exact found
  · simp [waitingIn, waits, queues]

theorem Balance.trans {middle after : Broker} {entered left : List Delivery}
    (first : Balance queue broker middle [] []) (second : Balance queue middle after entered left) :
    Balance queue broker after entered left := by
  refine ⟨first.grows.trans second.grows, second.sound, ?_, ?_⟩
  · intro index found
    exact second.current index (first.current index found)
  · have same := first.waiting
    rw [List.append_nil, List.nil_append] at same
    rw [same]
    exact second.waiting

theorem balance_modify {index : Nat} {change : Incarnation → Incarnation} (sound : broker.Sound)
    (names : ∀ incarnation, (change incarnation).queue = incarnation.queue)
    (waits : ∀ incarnation, (change incarnation).waiting = incarnation.waiting) :
    Balance queue broker (broker.modifyIncarnation index change) [] [] := by
  have keeps : ∀ incarnation, broker.incarnations[index]? = some incarnation →
      (change incarnation).queue = incarnation.queue := fun incarnation _ => names incarnation
  refine ⟨grows_modify keeps, sound_modify keeps sound, fun _ found => found, ?_⟩
  have same : (broker.modifyIncarnation index change).waitingAt = broker.waitingAt := by
    funext other
    rw [waitingAt_modify]
    split
    · simp only [waits]
      rfl
    · rfl
  unfold waitingIn
  rw [same, List.append_nil, List.nil_append]
  rfl

theorem balance_change {index : Nat} {change : Incarnation → Incarnation} {name : String}
    {entered left : List Delivery} (sound : broker.Sound) (named : broker.name? index = some name)
    (current : name = queue → broker.queues.get? queue = some index)
    (keeps : ∀ incarnation, broker.incarnations[index]? = some incarnation →
      (change incarnation).queue = incarnation.queue)
    (moves : ∀ incarnation, broker.incarnations[index]? = some incarnation →
      incarnation.waiting ++ entered = left ++ (change incarnation).waiting) :
    Balance queue broker (broker.modifyIncarnation index change)
      (if name = queue then entered else []) (if name = queue then left else []) := by
  refine ⟨grows_modify keeps, sound_modify keeps sound, fun _ found => found, ?_⟩
  have queues : (broker.modifyIncarnation index change).queues = broker.queues := rfl
  simp only [waitingIn, queues]
  by_cases same : name = queue
  · simp only [if_pos same, current same, Option.map_some, Option.getD_some, waitingAt_modify,
      if_true]
    unfold name? at named
    cases found : broker.incarnations[index]? with
    | none => simp [found] at named
    | some incarnation => simp [waitingAt, found, moves incarnation found]
  · rw [if_neg same, if_neg same, List.append_nil, List.nil_append]
    cases found : broker.queues.get? queue with
    | none => rfl
    | some other =>
        have apart : index ≠ other := by
          intro equal
          subst other
          have bothNames := named.symm.trans (sound queue index found)
          exact same (Option.some.inj bothNames)
        simp only [Option.map_some, Option.getD_some, waitingAt_modify, if_neg apart]

theorem balance_begin (sound : broker.Sound) {name : String}
    (absent : broker.queues.get? name = none) :
    Balance queue broker
      { broker with
        queues := broker.queues.insert name broker.incarnations.length
        incarnations := broker.incarnations ++ [⟨name, [], false, []⟩] } [] [] := by
  have oldName : ∀ index other, broker.name? index = some other →
      (broker.incarnations ++ [⟨name, [], false, []⟩])[index]?.map Incarnation.queue =
        some other := by
    intro index other named
    unfold name? at named
    cases old : broker.incarnations[index]? with
    | none => simp [old] at named
    | some incarnation =>
        rw [List.getElem?_append_left (List.getElem?_eq_some_iff.mp old).1]
        exact named
  refine ⟨⟨oldName, fun _ _ found => found⟩, ?sound, ?current, ?waiting⟩
  case sound =>
    intro other index found
    simp only [Dictionary.get?_insert] at found
    by_cases same : name = other
    · simp only [same, if_true, Option.some.injEq] at found
      simp [name?, ← found, same]
    · rw [if_neg same] at found
      exact oldName index other (sound other index found)
  case current =>
    intro index found
    rw [Dictionary.get?_insert]
    by_cases same : name = queue
    · rw [← same, absent] at found
      simp at found
    · rw [if_neg same]
      exact found
  case waiting =>
    simp only [waitingIn, Dictionary.get?_insert, List.append_nil, List.nil_append]
    by_cases same : name = queue
    · subst name
      simp [absent, waitingAt]
    · rw [if_neg same]
      cases found : broker.queues.get? queue with
      | none => rfl
      | some index =>
          have named := sound queue index found
          unfold name? at named
          cases old : broker.incarnations[index]? with
          | none => simp [old] at named
          | some incarnation =>
              simp only [Option.map_some, Option.getD_some, waitingAt]
              rw [List.getElem?_append_left (List.getElem?_eq_some_iff.mp old).1]

theorem balance_incarnate (sound : broker.Sound) (name : String) :
    Balance queue broker (broker.incarnate name).2 [] [] := by
  unfold incarnate
  cases found : broker.queues.get? name with
  | some index => exact balance_of_same sound rfl rfl fun _ _ found => found
  | none => exact balance_begin sound found

theorem incarnate_current (broker : Broker) (name : String) :
    (broker.incarnate name).2.queues.get? name = some (broker.incarnate name).1 := by
  unfold incarnate
  cases found : broker.queues.get? name with
  | some index => exact found
  | none => simp

theorem balance_add {name : String} {index : Nat} (sound : broker.Sound)
    (current : broker.queues.get? name = some index) (delivery : Delivery) :
    Balance queue broker
      (broker.modifyIncarnation index fun incarnation =>
        { incarnation with waiting := incarnation.waiting ++ [delivery] })
      (if name = queue then [delivery] else []) [] := by
  have balance : Balance queue broker
      (broker.modifyIncarnation index fun incarnation =>
        { incarnation with waiting := incarnation.waiting ++ [delivery] })
      (if name = queue then [delivery] else []) (if name = queue then [] else []) :=
    balance_change sound (sound name index current) (fun same => same ▸ current) (fun _ _ => rfl)
      fun _ _ => rfl
  rw [ite_self] at balance
  exact balance

theorem balance_publish (sound : broker.Sound) (name : String) (messageId : Option String)
    (body : Bytes) :
    Balance queue broker (broker.publish name messageId body).2
      (if name = queue then [⟨(broker.publish name messageId body).1, messageId, body⟩] else [])
      [] := by
  have counted : Balance queue broker { broker with published := broker.published + 1 } [] [] :=
    balance_of_same sound rfl rfl fun _ _ found => found
  have found := counted.trans (balance_incarnate counted.sound name)
  have current := incarnate_current { broker with published := broker.published + 1 } name
  exact found.trans (balance_add found.sound current _)

theorem balance_publishTask (sound : broker.Sound) (ids : Nat → MessageId) (name : String)
    (param : TaskParam) :
    Balance queue broker (broker.publishTask ids name param).2.2
      (if name = queue then
        [⟨(broker.publishTask ids name param).2.1,
          some (broker.publishTask ids name param).1.text, Payload.encode param⟩]
      else []) [] := by
  have counted : Balance queue broker { broker with identified := broker.identified + 1 } [] [] :=
    balance_of_same sound rfl rfl fun _ _ found => found
  exact counted.trans (balance_publish counted.sound name _ _)

theorem balance_addStream (sound : broker.Sound) (stream : Stream) :
    Balance queue broker { broker with streams := broker.streams ++ [stream] } [] [] := by
  refine balance_of_same sound rfl rfl ?_
  intro index source found
  unfold source? at found ⊢
  cases old : broker.streams[index]? with
  | none => simp [old] at found
  | some known =>
      rw [List.getElem?_append_left (List.getElem?_eq_some_iff.mp old).1]
      exact found

theorem balance_consume (sound : broker.Sound) (name consumerTag : String)
    (options : ConsumeOptions) :
    Balance queue broker (broker.consume name consumerTag options).2 [] [] := by
  unfold consume
  simp only
  split
  · exact balance_of_same sound rfl rfl fun _ _ found => found
  · have listed : Balance queue broker
        { broker with
          consumeCalls := broker.consumeCalls + 1
          opened := broker.opened ++ [⟨name, consumerTag, options⟩] } [] [] :=
      balance_of_same sound rfl rfl fun _ _ found => found
    have found := listed.trans (balance_incarnate listed.sound name)
    exact found.trans (balance_addStream found.sound _)

theorem consume_ok {name consumerTag : String} {options : ConsumeOptions} {stream : Nat}
    {after : Broker} (consumed : broker.consume name consumerTag options = (.ok stream, after)) :
    ∃ index, after.source? stream = some index ∧ after.queues.get? name = some index := by
  unfold consume at consumed
  simp only at consumed
  split at consumed
  · simp at consumed
  · simp only [Prod.mk.injEq, Except.ok.injEq] at consumed
    obtain ⟨rfl, rfl⟩ := consumed
    refine ⟨_, ?_, incarnate_current _ name⟩
    simp [source?]

theorem balance_setStream (sound : broker.Sound) {stream index : Nat} (live : Bool)
    (found : broker.source? stream = some index) :
    Balance queue broker
      { broker with streams := broker.streams.set stream ⟨index, live⟩ } [] [] := by
  refine balance_of_same sound rfl rfl ?_
  intro other source known
  unfold source? at known found ⊢
  simp only [List.getElem?_set]
  by_cases same : stream = other
  · subst other
    cases old : broker.streams[stream]? with
    | none => simp [old] at found
    | some stored =>
        have bound := (List.getElem?_eq_some_iff.mp old).1
        rw [found] at known
        simp [bound, known]
  · simp only [if_neg same]
    exact known

theorem balance_dropStream (sound : broker.Sound) (stream : Nat) :
    Balance queue broker (broker.dropStream stream) [] [] := by
  unfold dropStream
  cases found : broker.streams[stream]? with
  | none => exact balance_of_same sound rfl rfl fun _ _ found => found
  | some stored =>
      have source : broker.source? stream = some stored.incarnation := by simp [source?, found]
      have set : Balance queue broker
          { broker with streams := broker.streams.set stream ⟨stored.incarnation, false⟩ } [] [] :=
        balance_setStream sound false source
      exact set.trans (balance_modify set.sound (fun _ => rfl) fun _ => rfl)

theorem sound_erase (sound : broker.Sound) (name : String) :
    Sound { broker with queues := broker.queues.erase name } := by
  intro known place current
  simp only [Dictionary.get?_erase] at current
  split at current
  · simp at current
  · exact sound known place current

theorem sound_closeQueue (sound : broker.Sound) (name : String) :
    (broker.closeQueue name).Sound := by
  unfold closeQueue
  cases found : broker.queues.get? name with
  | none => exact sound
  | some index => exact sound_modify (fun _ _ => rfl) (sound_erase sound name)

theorem balance_closeQueue (sound : broker.Sound) {name : String} (other : name ≠ queue) :
    Balance queue broker (broker.closeQueue name) [] [] := by
  unfold closeQueue
  cases found : broker.queues.get? name with
  | none => exact balance_of_same sound rfl rfl fun _ _ found => found
  | some index =>
      have forgotten : Balance queue broker
          { broker with queues := broker.queues.erase name } [] [] := by
        refine ⟨⟨fun _ _ named => named, fun _ _ source => source⟩, sound_erase sound name, ?_, ?_⟩
        · intro place current
          simpa only [Dictionary.get?_erase, if_neg other] using current
        · simp only [waitingIn, Dictionary.get?_erase, if_neg other, List.append_nil,
            List.nil_append]
          rfl
      exact forgotten.trans (balance_modify forgotten.sound (fun _ => rfl) fun _ => rfl)

def Polled.deliveries : Polled → List Delivery
  | .next delivery => [delivery]
  | _ => []

theorem Incarnation.poll_spec (incarnation : Incarnation) (stream : Nat) :
    (incarnation.poll stream).2.queue = incarnation.queue ∧
      incarnation.waiting =
        (incarnation.poll stream).1.deliveries ++ (incarnation.poll stream).2.waiting := by
  unfold Incarnation.poll
  generalize (if stream ∈ incarnation.line then incarnation.line
    else incarnation.line ++ [stream]) = line
  simp only
  by_cases first : line.head? = some stream
  · rw [if_pos first]
    cases waits : incarnation.waiting with
    | cons delivery rest => exact ⟨rfl, rfl⟩
    | nil =>
        simp only
        by_cases closed : incarnation.closed = true
        · rw [if_pos closed]
          exact ⟨rfl, rfl⟩
        · rw [if_neg closed]
          exact ⟨rfl, rfl⟩
  · rw [if_neg first]
    exact ⟨rfl, rfl⟩

theorem poll_cases (broker : Broker) (stream : Nat) :
    broker.poll stream = (.ended, broker) ∨
      ∃ index live incarnation, broker.source? stream = some index ∧
        broker.incarnations[index]? = some incarnation ∧
        broker.poll stream = ((incarnation.poll stream).1,
          { broker with streams := broker.streams.set stream ⟨index, live⟩ }.modifyIncarnation
            index fun _ => (incarnation.poll stream).2) := by
  unfold poll
  cases found : broker.streams[stream]? with
  | none => exact Or.inl rfl
  | some stored =>
      obtain ⟨index, live⟩ := stored
      cases live with
      | false => exact Or.inl rfl
      | true =>
          cases held : broker.incarnations[index]? with
          | none => simp [held]
          | some incarnation =>
              have set := List.set_eq_modify (incarnation.poll stream).2 index broker.incarnations
              simp only [held, modifyIncarnation, set]
              right
              by_cases ended : (incarnation.poll stream).1 = .ended
              · refine ⟨index, false, incarnation, by simp [source?, found], held, ?_⟩
                rw [if_pos ended]
              · refine ⟨index, true, incarnation, by simp [source?, found], held, ?_⟩
                obtain ⟨bound, value⟩ := List.getElem?_eq_some_iff.mp found
                rw [if_neg ended, ← value, List.set_getElem_self bound]

theorem sound_poll (sound : broker.Sound) (stream : Nat) : (broker.poll stream).2.Sound := by
  rcases poll_cases broker stream with ended | ⟨index, live, incarnation, _, held, polled⟩
  · rw [ended]
    exact sound
  · rw [polled]
    refine sound_modify ?_ sound
    intro old foundOld
    obtain rfl := Option.some.inj (held.symm.trans foundOld)
    exact (incarnation.poll_spec stream).1

theorem balance_poll {stream index : Nat} {name : String} (sound : broker.Sound)
    (source : broker.source? stream = some index) (named : broker.name? index = some name)
    (current : name = queue → broker.queues.get? queue = some index) :
    Balance queue broker (broker.poll stream).2 []
      (if name = queue then (broker.poll stream).1.deliveries else []) := by
  rcases poll_cases broker stream with ended | ⟨place, live, incarnation, placed, held, polled⟩
  · rw [ended]
    simp only [Polled.deliveries, ite_self]
    exact balance_of_same sound rfl rfl fun _ _ source => source
  · obtain rfl := Option.some.inj (source.symm.trans placed)
    rw [polled]
    have marked : Balance queue broker
        { broker with streams := broker.streams.set stream ⟨index, live⟩ } [] [] :=
      balance_setStream sound live source
    have moved : Balance queue
        { broker with streams := broker.streams.set stream ⟨index, live⟩ }
        ({ broker with streams := broker.streams.set stream ⟨index, live⟩ }.modifyIncarnation
          index fun _ => (incarnation.poll stream).2)
        (if name = queue then [] else [])
        (if name = queue then (incarnation.poll stream).1.deliveries else []) := by
      apply balance_change marked.sound named current
      · intro old foundOld
        obtain rfl := Option.some.inj (held.symm.trans foundOld)
        exact (incarnation.poll_spec stream).1
      · intro old foundOld
        obtain rfl := Option.some.inj (held.symm.trans foundOld)
        rw [List.append_nil]
        exact (incarnation.poll_spec stream).2
    rw [ite_self] at moved
    exact marked.trans moved

end Balance

def ends (broker : Broker) : List (UInt64 × Termination) × Nat :=
  (broker.log, broker.failingTerminations)

@[simp] theorem ends_incarnate (broker : Broker) (queue : String) :
    (broker.incarnate queue).2.ends = broker.ends := by
  unfold incarnate
  split <;> rfl

@[simp] theorem ends_consume (broker : Broker) (queue consumerTag : String)
    (options : ConsumeOptions) :
    (broker.consume queue consumerTag options).2.ends = broker.ends := by
  unfold consume
  simp only
  split
  · rfl
  · exact ends_incarnate _ queue

@[simp] theorem ends_poll (broker : Broker) (stream : Nat) :
    (broker.poll stream).2.ends = broker.ends := by
  rcases poll_cases broker stream with ended | ⟨_, _, _, _, _, polled⟩
  · rw [ended]
  · rw [polled]
    rfl

@[simp] theorem ends_dropStream (broker : Broker) (stream : Nat) :
    (broker.dropStream stream).ends = broker.ends := by
  unfold dropStream
  split <;> rfl

@[simp] theorem ends_publish (broker : Broker) (queue : String) (messageId : Option String)
    (body : Bytes) : (broker.publish queue messageId body).2.ends = broker.ends :=
  ends_incarnate _ queue

@[simp] theorem ends_publishTask (broker : Broker) (ids : Nat → MessageId) (queue : String)
    (param : TaskParam) : (broker.publishTask ids queue param).2.2.ends = broker.ends :=
  ends_publish _ queue _ _

@[simp] theorem ends_closeQueue (broker : Broker) (queue : String) :
    (broker.closeQueue queue).ends = broker.ends := by
  unfold closeQueue
  split <;> rfl

theorem log_terminate (broker : Broker) (tag : UInt64) (termination : Termination) :
    (broker.terminate tag termination).2.log = broker.log ++
      match (broker.terminate tag termination).1 with
      | .ok () => [(tag, termination)]
      | .error _ => [] := by
  unfold terminate
  split
  · exact (List.append_nil _).symm
  · rfl

theorem Change.sound {before after : Broker} (change : Change before after)
    (sound : before.Sound) : after.Sound := by
  cases change with
  | publish queue messageId body =>
      have balance : Balance queue before (before.publish queue messageId body).2 _ _ :=
        balance_publish sound queue messageId body
      exact balance.sound
  | publishTask ids queue param =>
      have balance : Balance queue before (before.publishTask ids queue param).2.2 _ _ :=
        balance_publishTask sound ids queue param
      exact balance.sound
  | consume queue consumerTag options =>
      have balance : Balance queue before (before.consume queue consumerTag options).2 _ _ :=
        balance_consume sound queue consumerTag options
      exact balance.sound
  | poll stream => exact sound_poll sound stream
  | dropStream stream =>
      have balance : Balance "" before (before.dropStream stream) _ _ :=
        balance_dropStream sound stream
      exact balance.sound
  | closeQueue queue => exact sound_closeQueue sound queue
  | terminate tag termination =>
      unfold Broker.terminate
      split <;> exact sound
  | failConsumes _ => exact sound
  | failTerminations _ => exact sound

theorem Made.sound {broker : Broker} (made : Made broker) : broker.Sound := by
  induction made with
  | empty => exact Sound.empty
  | change _ change ih => exact change.sound ih

end TaskQueue.Broker
