import TaskQueue.Proofs.Broker.History

/-!
What shifts do to an incarnation. It hands out what is published to it in that order, and once it is
closed nothing comes to it any more. What an incident says stays true.
-/

namespace TaskQueue.Broker

def Incident.arrival? : Incident → Option (Nat × Delivery)
  | .published index _ delivery => some (index, delivery)
  | _ => none

def Incident.yield? : Incident → Option (Nat × Delivery)
  | .yielded index _ delivery => some (index, delivery)
  | _ => none

def Incident.publishedTo? (queue : String) : Incident → Option Delivery
  | .published _ name delivery => if name = queue then some delivery else none
  | _ => none

def arrivals (past : List Incident) : List (Nat × Delivery) := past.filterMap Incident.arrival?

def yields (past : List Incident) : List (Nat × Delivery) := past.filterMap Incident.yield?

def picked (index : Nat) (values : List (Nat × Delivery)) : List Delivery :=
  values.filterMap fun value => if value.1 = index then some value.2 else none

/-- An incarnation is closed when its name no longer stands for it. -/
def Closed (broker : Broker) (index : Nat) : Prop :=
  ∃ queue, broker.name? index = some queue ∧ broker.queues.get? queue ≠ some index

def Abandoned (broker : Broker) (index : Nat) : Prop :=
  broker.Closed index ∧ ∀ stream : Nat, broker.streams[stream]? ≠ some ⟨index, true⟩

@[simp] theorem arrivals_append (earlier later : List Incident) :
    arrivals (earlier ++ later) = arrivals earlier ++ arrivals later := List.filterMap_append

@[simp] theorem yields_append (earlier later : List Incident) :
    yields (earlier ++ later) = yields earlier ++ yields later := List.filterMap_append

@[simp] theorem picked_append (index : Nat) (earlier later : List (Nat × Delivery)) :
    picked index (earlier ++ later) = picked index earlier ++ picked index later :=
  List.filterMap_append

theorem mem_picked {index : Nat} {values : List (Nat × Delivery)} {delivery : Delivery} :
    delivery ∈ picked index values ↔ (index, delivery) ∈ values := by
  unfold picked
  constructor
  · intro taken
    obtain ⟨⟨place, value⟩, known, same⟩ := List.mem_filterMap.mp taken
    split at same
    · rename_i here
      obtain rfl := Option.some.inj same
      exact here ▸ known
    · simp at same
  · intro known
    exact List.mem_filterMap.mpr ⟨_, known, if_pos rfl⟩

theorem picked_all {index : Nat} {values : List (Nat × Delivery)}
    (here : ∀ value ∈ values, value.1 = index) : picked index values = values.map Prod.snd := by
  unfold picked
  rw [← List.filterMap_eq_map]
  apply List.filterMap_congr
  intro value taken
  exact if_pos (here value taken)

theorem picked_sublist (index : Nat) (values : List (Nat × Delivery)) :
    (picked index values).Sublist (values.map Prod.snd) := by
  unfold picked
  induction values with
  | nil => exact .slnil
  | cons value rest ih =>
      rw [List.filterMap_cons, List.map_cons]
      by_cases same : value.1 = index
      · rw [if_pos same]
        exact ih.cons_cons value.2
      · rw [if_neg same]
        exact ih.cons value.2

theorem mem_arrivals {index : Nat} {delivery : Delivery} {past : List Incident} :
    (index, delivery) ∈ arrivals past ↔ ∃ queue, .published index queue delivery ∈ past := by
  unfold arrivals
  rw [List.mem_filterMap]
  constructor
  · rintro ⟨incident, known, arrived⟩
    cases incident with
    | published place queue other =>
        obtain ⟨rfl, rfl⟩ := Prod.mk.inj (Option.some.inj arrived)
        exact ⟨queue, known⟩
    | _ => simp [Incident.arrival?] at arrived
  · rintro ⟨queue, known⟩
    exact ⟨_, known, rfl⟩

theorem mem_yields {index : Nat} {delivery : Delivery} {past : List Incident} :
    (index, delivery) ∈ yields past ↔ ∃ stream, .yielded index stream delivery ∈ past := by
  unfold yields
  rw [List.mem_filterMap]
  constructor
  · rintro ⟨incident, known, yielded⟩
    cases incident with
    | yielded place stream other =>
        obtain ⟨rfl, rfl⟩ := Prod.mk.inj (Option.some.inj yielded)
        exact ⟨stream, known⟩
    | _ => simp [Incident.yield?] at yielded
  · rintro ⟨stream, known⟩
    exact ⟨_, known, rfl⟩

section Shifts

variable {before after : Broker} {incidents : List Incident} {index : Nat}

theorem waitingAt_held {broker : Broker} {incarnation : Incarnation}
    (held : broker.incarnations[index]? = some incarnation) :
    broker.waitingAt index = incarnation.waiting := by
  rw [waitingAt, held]
  rfl

theorem InOrder.closed_iff {broker : Broker} {incarnation : Incarnation} (order : broker.InOrder)
    (held : broker.incarnations[index]? = some incarnation) :
    broker.Closed index ↔ incarnation.closed = true := by
  have named : broker.name? index = some incarnation.queue := by rw [name?, held]; rfl
  constructor
  · rintro ⟨queue, isQueue, other⟩
    obtain rfl := Option.some.inj (named.symm.trans isQueue)
    by_contra isOpen
    exact other (order.standing index incarnation held (Bool.eq_false_iff.mpr isOpen))
  · intro closed
    refine ⟨incarnation.queue, named, ?_⟩
    intro current
    obtain ⟨other, heldOther, _, isOpen⟩ := order.current _ index current
    obtain rfl := Option.some.inj (held.symm.trans heldOther)
    rw [closed] at isOpen
    simp at isOpen

theorem waitingAt_dropStream (broker : Broker) (stream : Nat) :
    (broker.dropStream stream).waitingAt index = broker.waitingAt index := by
  unfold dropStream
  split
  · rfl
  · rw [waitingAt_modify]
    split <;> rfl

theorem waitingAt_closeQueue (broker : Broker) (queue : String) :
    (broker.closeQueue queue).waitingAt index = broker.waitingAt index := by
  unfold closeQueue
  split
  · rfl
  · rw [waitingAt_modify]
    split <;> rfl

theorem get?_closeQueue (broker : Broker) (queue : String) :
    (broker.closeQueue queue).queues.get? queue = none := by
  unfold closeQueue
  cases current : broker.queues.get? queue with
  | none => exact current
  | some index => simp [modifyIncarnation]

theorem waitingAt_begin (broker : Broker) (queue : String) :
    waitingAt { broker with
      queues := broker.queues.insert queue broker.incarnations.length
      incarnations := broker.incarnations ++ [⟨queue, [], false, []⟩] } index =
        broker.waitingAt index := by
  unfold waitingAt
  rcases Nat.lt_trichotomy index broker.incarnations.length with old | new | beyond
  · simp only [List.getElem?_append_left old]
  · simp [new]
  · rw [List.getElem?_eq_none (by simpa using Nat.succ_le_of_lt beyond),
      List.getElem?_eq_none (Nat.le_of_lt beyond)]

theorem Shift.flow (shift : Shift before incidents after) (order : before.InOrder) (index : Nat) :
    before.waitingAt index ++ picked index (arrivals incidents) =
      picked index (yields incidents) ++ after.waitingAt index := by
  cases shift with
  | keep _ incarnations _ _ | refuse _ incarnations _ _ =>
      have same : after.waitingAt index = before.waitingAt index := by
        rw [waitingAt, incarnations]
        rfl
      rw [same]
      exact List.append_nil _
  | begin absent =>
      rw [waitingAt_begin]
      exact List.append_nil _
  | @enter queue place current messageId body =>
      obtain ⟨incarnation, held, _⟩ := order.current _ _ current
      rw [waitingAt_modify]
      by_cases here : place = index
      · subst place
        simp [arrivals, yields, picked, Incident.arrival?, Incident.yield?, held,
          waitingAt_held held]
      · simp [arrivals, yields, picked, Incident.arrival?, Incident.yield?, here]
        rfl
  | serve current => exact List.append_nil _
  | @take stream place incarnation delivery rest live held waits =>
      rw [waitingAt_modify]
      by_cases here : place = index
      · subst place
        simp [arrivals, yields, picked, Incident.arrival?, Incident.yield?, held,
          waitingAt_held held, waits]
      · simp [arrivals, yields, picked, Incident.arrival?, Incident.yield?, here]
  | @stand stream place incarnation live held =>
      rw [waitingAt_modify]
      by_cases here : place = index
      · subst place
        simp [arrivals, yields, picked, held, waitingAt_held held, Incarnation.join]
      · simp [arrivals, yields, picked, here]
  | drop found =>
      rw [waitingAt_dropStream]
      exact List.append_nil _
  | finish live held waits closed =>
      rw [waitingAt_dropStream]
      exact List.append_nil _
  | close current =>
      rw [waitingAt_closeQueue]
      exact List.append_nil _

theorem held_dropStream {broker : Broker} {incarnation : Incarnation} (stream : Nat)
    (held : broker.incarnations[index]? = some incarnation) :
    ∃ line, (broker.dropStream stream).incarnations[index]? = some { incarnation with line } := by
  unfold dropStream
  split
  · exact ⟨incarnation.line, held⟩
  · simp only [modifyIncarnation, List.getElem?_modify, held, Option.map_some, Option.map_eq_map]
    split
    · exact ⟨_, rfl⟩
    · exact ⟨incarnation.line, rfl⟩

theorem Shift.lasting (shift : Shift before incidents after) {incarnation : Incarnation}
    (held : before.incarnations[index]? = some incarnation) :
    ∃ later, after.incarnations[index]? = some later ∧ later.queue = incarnation.queue ∧
      (incarnation.closed = true → later.closed = true) := by
  cases shift with
  | keep _ incarnations _ _ | refuse _ incarnations _ _ =>
      exact ⟨incarnation, incarnations ▸ held, rfl, id⟩
  | begin absent =>
      exact ⟨incarnation, getElem?_concat _ held, rfl, id⟩
  | enter current messageId body =>
      refine ⟨_, held_modify held, ?_⟩
      split <;> exact ⟨rfl, id⟩
  | serve current => exact ⟨incarnation, held, rfl, id⟩
  | @take stream place taken delivery rest live heldTaken waits =>
      refine ⟨_, held_modify held, ?_⟩
      split
      · subst place
        obtain rfl := Option.some.inj (held.symm.trans heldTaken)
        exact ⟨rfl, id⟩
      · exact ⟨rfl, id⟩
  | @stand stream place stood live heldStood =>
      refine ⟨_, held_modify held, ?_⟩
      split
      · subst place
        obtain rfl := Option.some.inj (held.symm.trans heldStood)
        exact ⟨rfl, id⟩
      · exact ⟨rfl, id⟩
  | @drop stream stored found =>
      obtain ⟨line, kept⟩ := held_dropStream stream held
      exact ⟨_, kept, rfl, id⟩
  | @finish stream place ending live heldEnding waits closed =>
      obtain ⟨line, kept⟩ := held_dropStream stream held
      exact ⟨_, kept, rfl, id⟩
  | @close queue place current =>
      unfold closeQueue
      rw [current]
      refine ⟨_, held_modify held, ?_⟩
      split
      · exact ⟨rfl, fun _ => rfl⟩
      · exact ⟨rfl, id⟩

theorem streams_dropStream (broker : Broker) {stream other : Nat} {stored : Stream}
    (found : (broker.dropStream stream).streams[other]? = some stored) :
    ∃ old, broker.streams[other]? = some old ∧ old.incarnation = stored.incarnation ∧
      (stored.live = true → old = stored) := by
  unfold dropStream at found
  split at found
  · exact ⟨stored, found, rfl, fun _ => rfl⟩
  · rename_i known
    simp only [modifyIncarnation, List.getElem?_set] at found
    split at found
    · rename_i same
      subst other
      split at found
      · obtain rfl := Option.some.inj found
        exact ⟨_, known, rfl, by simp⟩
      · simp at found
    · exact ⟨stored, found, rfl, fun _ => rfl⟩

theorem Shift.stream (shift : Shift before incidents after) {stream : Nat} {stored : Stream}
    (found : after.streams[stream]? = some stored) :
    (∃ old, before.streams[stream]? = some old ∧ old.incarnation = stored.incarnation ∧
      (stored.live = true → old = stored)) ∨
    ∃ queue, before.queues.get? queue = some stored.incarnation ∧
      incidents = [.opened stored.incarnation queue stream] := by
  cases shift with
  | keep _ _ streams _ | refuse _ _ streams _ =>
      exact Or.inl ⟨stored, streams ▸ found, rfl, fun _ => rfl⟩
  | begin _ => exact Or.inl ⟨stored, found, rfl, fun _ => rfl⟩
  | enter _ _ _ => exact Or.inl ⟨stored, found, rfl, fun _ => rfl⟩
  | @serve queue place current =>
      rcases getElem?_concat_cases found with old | ⟨rfl, rfl⟩
      · exact Or.inl ⟨stored, old, rfl, fun _ => rfl⟩
      · exact Or.inr ⟨queue, current, rfl⟩
  | take _ _ _ => exact Or.inl ⟨stored, found, rfl, fun _ => rfl⟩
  | stand _ _ => exact Or.inl ⟨stored, found, rfl, fun _ => rfl⟩
  | drop _ => exact Or.inl (before.streams_dropStream found)
  | finish _ _ _ _ => exact Or.inl (before.streams_dropStream found)
  | close current =>
      unfold closeQueue at found
      rw [current] at found
      exact Or.inl ⟨stored, found, rfl, fun _ => rfl⟩

theorem InOrder.sound {broker : Broker} (order : broker.InOrder) : broker.Sound := by
  intro queue index current
  obtain ⟨incarnation, held, named, _⟩ := order.current queue index current
  rw [name?, held]
  exact congrArg some named

theorem Shift.grows (shift : Shift before incidents after) (order : before.InOrder) :
    Grows before after := by
  constructor
  · intro index queue named
    obtain ⟨incarnation, held, rfl⟩ := Option.map_eq_some_iff.mp named
    obtain ⟨later, heldLater, same, _⟩ := shift.lasting held
    rw [name?, heldLater]
    exact congrArg some same
  · intro stream index found
    have dropped : ∀ other, (before.dropStream other).source? stream = some index := by
      intro other
      have balance : Balance "" _ _ [] [] := balance_dropStream order.sound other
      exact balance.grows.sources stream index found
    cases shift with
    | keep _ _ streams _ | refuse _ _ streams _ =>
        rw [source?, streams]
        exact found
    | begin _ => exact found
    | enter _ _ _ => exact found
    | serve _ =>
        obtain ⟨stored, known, rfl⟩ := Option.map_eq_some_iff.mp found
        exact source_of_stream (getElem?_concat _ known)
    | take _ _ _ => exact found
    | stand _ _ => exact found
    | drop _ => exact dropped _
    | finish _ _ _ _ => exact dropped _
    | close current =>
        unfold closeQueue
        rw [current]
        exact found

theorem Shift.closed (shift : Shift before incidents after) (order : before.InOrder)
    (closed : before.Closed index) :
    after.Closed index ∧ picked index (arrivals incidents) = [] := by
  have named := closed
  obtain ⟨queue, isName, _⟩ := named
  obtain ⟨incarnation, held, _⟩ := Option.map_eq_some_iff.mp isName
  have ended := (order.closed_iff held).mp closed
  obtain ⟨later, heldLater, _, stays⟩ := shift.lasting held
  refine ⟨((shift.inOrder order).closed_iff heldLater).mpr (stays ended), ?_⟩
  cases shift with
  | @enter name place current messageId body =>
      obtain ⟨other, heldOther, _, isOpen⟩ := order.current name place current
      have elsewhere : place ≠ index := by
        rintro rfl
        obtain rfl := Option.some.inj (held.symm.trans heldOther)
        rw [ended] at isOpen
        simp at isOpen
      simp [arrivals, picked, Incident.arrival?, elsewhere]
  | _ => rfl

/-- An incarnation that is closed and has no stream stays so, and nothing comes from it. -/
theorem Shift.abandoned (shift : Shift before incidents after) (order : before.InOrder)
    (abandoned : before.Abandoned index) :
    after.Abandoned index ∧ picked index (yields incidents) = [] := by
  obtain ⟨closed, alone⟩ := abandoned
  have stays := shift.closed order closed
  refine ⟨⟨stays.1, ?_⟩, ?_⟩
  · intro stream live
    rcases shift.stream live with ⟨old, known, _, same⟩ | ⟨queue, current, _⟩
    · rw [same rfl] at known
      exact alone stream known
    · obtain ⟨name, isName, other⟩ := closed
      have isQueue := order.sound queue index current
      obtain rfl := Option.some.inj (isName.symm.trans isQueue)
      exact other current
  · cases shift with
    | @take stream place incarnation delivery rest live held waits =>
        have elsewhere : place ≠ index := by
          rintro rfl
          exact alone stream live
        simp [yields, picked, Incident.yield?, elsewhere]
    | _ => rfl

theorem Shift.live (shift : Shift before incidents after) {stream : Nat}
    (live : before.streams[stream]? = some ⟨index, true⟩)
    (unended : .ended index stream ∉ incidents) (undropped : .dropped index stream ∉ incidents) :
    after.streams[stream]? = some ⟨index, true⟩ := by
  have others : ∀ dropped, dropped ≠ stream →
      (before.dropStream dropped).streams[stream]? = some ⟨index, true⟩ := by
    intro dropped different
    unfold dropStream
    split
    · exact live
    · simp only [modifyIncarnation, List.getElem?_set, if_neg different]
      exact live
  cases shift with
  | keep _ _ streams _ | refuse _ _ streams _ =>
      rw [streams]
      exact live
  | serve _ => exact getElem?_concat _ live
  | @drop dropped stored found =>
      refine others dropped ?_
      rintro rfl
      obtain rfl := Option.some.inj (found.symm.trans live)
      exact undropped List.mem_cons_self
  | @finish finished place incarnation liveEnding held waits closed =>
      refine others finished ?_
      rintro rfl
      obtain rfl := (Stream.mk.inj (Option.some.inj (liveEnding.symm.trans live))).1
      exact unended List.mem_cons_self
  | close current =>
      unfold closeQueue
      rw [current]
      exact live
  | _ => exact live

theorem Shift.current (shift : Shift before incidents after) {queue : String}
    (current : before.queues.get? queue = some index)
    (unclosed : ∀ place, .closed place queue ∉ incidents) :
    after.queues.get? queue = some index := by
  cases shift with
  | keep queues _ _ _ | refuse queues _ _ _ =>
      rw [queues]
      exact current
  | @begin name absent =>
      have different : name ≠ queue := by
        rintro rfl
        rw [absent] at current
        simp at current
      simp only [Dictionary.get?_insert, if_neg different]
      exact current
  | drop found =>
      unfold dropStream
      rw [found]
      exact current
  | finish live _ _ _ =>
      unfold dropStream
      rw [live]
      exact current
  | @close name place known =>
      have different : name ≠ queue := by
        rintro rfl
        exact unclosed place List.mem_cons_self
      unfold closeQueue
      rw [known]
      simp only [modifyIncarnation, Dictionary.get?_erase, if_neg different]
      exact current
  | _ => exact current

theorem Shift.numbered (shift : Shift before incidents after) :
    (arrivals incidents).map (fun arrival => arrival.2.tag) =
        (List.range' (before.published + 1) (arrivals incidents).length).map Nat.toUInt64 ∧
      after.published = before.published + (arrivals incidents).length := by
  cases shift with
  | keep _ _ _ published | refuse _ _ _ published => exact ⟨rfl, published⟩
  | drop found =>
      unfold dropStream
      rw [found]
      exact ⟨rfl, rfl⟩
  | finish live _ _ _ =>
      unfold dropStream
      rw [live]
      exact ⟨rfl, rfl⟩
  | close current =>
      unfold closeQueue
      rw [current]
      exact ⟨rfl, rfl⟩
  | _ => exact ⟨rfl, rfl⟩

def Incident.Holds (broker : Broker) : Incident → Prop
  | .published index queue _ => broker.name? index = some queue
  | .opened index queue stream =>
      broker.source? stream = some index ∧ broker.name? index = some queue
  | .yielded index stream _ => broker.source? stream = some index
  | .refused _ => True
  | .ended index _ => broker.Closed index ∧ broker.waitingAt index = []
  | .dropped index stream => broker.source? stream = some index
  | .closed index queue => broker.name? index = some queue ∧ broker.Closed index

theorem Shift.holds {incident : Incident} (shift : Shift before incidents after)
    (order : before.InOrder) (holds : incident.Holds before) : incident.Holds after := by
  have grows := shift.grows order
  cases incident with
  | published index queue delivery => exact grows.names index queue holds
  | opened index queue stream =>
      exact ⟨grows.sources stream index holds.1, grows.names index queue holds.2⟩
  | yielded index stream delivery | dropped index stream =>
      exact grows.sources stream index holds
  | refused queue => exact trivial
  | closed index queue =>
      exact ⟨grows.names index queue holds.1, (shift.closed order holds.2).1⟩
  | ended index stream =>
      obtain ⟨closed, nothing⟩ := holds
      have stays := shift.closed order closed
      have flow := shift.flow order index
      rw [nothing, stays.2, List.append_nil] at flow
      exact ⟨stays.1, (List.append_eq_nil_iff.mp flow.symm).2⟩

theorem Shift.holds_new {incident : Incident} (shift : Shift before incidents after)
    (order : before.InOrder) (new : incident ∈ incidents) : incident.Holds after := by
  have grows := shift.grows order
  cases shift with
  | @enter queue index current messageId body =>
      obtain rfl := List.mem_singleton.mp new
      exact grows.names index queue (order.sound queue index current)
  | @serve queue index current =>
      obtain rfl := List.mem_singleton.mp new
      exact ⟨by simp [source?], order.sound queue index current⟩
  | @take stream index incarnation delivery rest live held waits =>
      obtain rfl := List.mem_singleton.mp new
      exact grows.sources stream index (source_of_stream live)
  | @finish stream index incarnation live held waits closed =>
      obtain rfl := List.mem_singleton.mp new
      have shift : Shift before _ _ := .finish live held waits closed
      refine ⟨(shift.closed order ((order.closed_iff held).mpr closed)).1, ?_⟩
      rw [waitingAt_dropStream, waitingAt_held held]
      exact waits
  | refuse _ _ _ _ =>
      obtain rfl := List.mem_singleton.mp new
      exact trivial
  | drop found =>
      obtain rfl := List.mem_singleton.mp new
      exact grows.sources _ _ (source_of_stream found)
  | @close queue index current =>
      obtain rfl := List.mem_singleton.mp new
      have named := grows.names index queue (order.sound queue index current)
      exact ⟨named, queue, named, by simp [get?_closeQueue]⟩
  | _ => simp at new

end Shifts

section Shifted

variable {first last : Broker} {past : List Incident} {index : Nat}

theorem Shifted.flow (shifted : Shifted first past last) (order : first.InOrder) (index : Nat) :
    first.waitingAt index ++ picked index (arrivals past) =
      picked index (yields past) ++ last.waitingAt index := by
  induction shifted with
  | refl => exact List.append_nil _
  | step earlier shift ih =>
      rw [arrivals_append, yields_append, picked_append, picked_append, ← List.append_assoc, ih,
        List.append_assoc, shift.flow (earlier.inOrder order) index, List.append_assoc]

theorem Shifted.closed (shifted : Shifted first past last) (order : first.InOrder)
    (closed : first.Closed index) : last.Closed index ∧ picked index (arrivals past) = [] := by
  induction shifted with
  | refl => exact ⟨closed, rfl⟩
  | step earlier shift ih =>
      have stays := shift.closed (earlier.inOrder order) ih.1
      rw [arrivals_append, picked_append, ih.2, stays.2]
      exact ⟨stays.1, rfl⟩

theorem Shifted.waitingAt_closed (shifted : Shifted first past last) (order : first.InOrder)
    (closed : first.Closed index) :
    first.waitingAt index = picked index (yields past) ++ last.waitingAt index := by
  have flow := shifted.flow order index
  rwa [(shifted.closed order closed).2, List.append_nil] at flow

theorem Shifted.abandoned (shifted : Shifted first past last) (order : first.InOrder)
    (abandoned : first.Abandoned index) :
    last.Abandoned index ∧ picked index (yields past) = [] := by
  induction shifted with
  | refl => exact ⟨abandoned, rfl⟩
  | step earlier shift ih =>
      have stays := shift.abandoned (earlier.inOrder order) ih.1
      rw [yields_append, picked_append, ih.2, stays.2]
      exact ⟨stays.1, rfl⟩

theorem Shifted.live (shifted : Shifted first past last) {stream : Nat}
    (live : first.streams[stream]? = some ⟨index, true⟩) (unended : .ended index stream ∉ past)
    (undropped : .dropped index stream ∉ past) : last.streams[stream]? = some ⟨index, true⟩ := by
  induction shifted with
  | refl => exact live
  | step earlier shift ih =>
      rw [List.mem_append, not_or] at unended undropped
      exact shift.live (ih unended.1 undropped.1) unended.2 undropped.2

/-- What is published to a name goes to the incarnation that it stands for until it is closed. -/
theorem Shifted.published_current (shifted : Shifted first past last) {queue : String}
    {delivery : Delivery} (published : .published index queue delivery ∈ past)
    (unclosed : ∀ place, .closed place queue ∉ past) : last.queues.get? queue = some index := by
  induction shifted with
  | refl => simp at published
  | step earlier shift ih =>
      rcases List.mem_append.mp published with old | new
      · refine shift.current (ih old ?_) ?_
        · intro place known
          exact unclosed place (List.mem_append_left _ known)
        · intro place known
          exact unclosed place (List.mem_append_right _ known)
      · cases shift with
        | enter current _ _ =>
            obtain ⟨rfl, rfl, _⟩ := Incident.published.inj (List.mem_singleton.mp new)
            exact current
        | _ => simp at new

theorem Shifted.grows (shifted : Shifted first past last) (order : first.InOrder) :
    Grows first last := by
  induction shifted with
  | refl => exact .refl first
  | step earlier shift ih => exact ih.trans (shift.grows (earlier.inOrder order))

theorem Shifted.numbered (shifted : Shifted first past last) :
    (arrivals past).map (fun arrival => arrival.2.tag) =
        (List.range' (first.published + 1) (arrivals past).length).map Nat.toUInt64 ∧
      last.published = first.published + (arrivals past).length := by
  induction shifted with
  | refl => exact ⟨rfl, rfl⟩
  | step earlier shift ih =>
      obtain ⟨oldTags, oldCount⟩ := ih
      obtain ⟨newTags, newCount⟩ := shift.numbered
      rw [arrivals_append, List.map_append, List.length_append, oldTags, newTags, oldCount,
        ← List.map_append, newCount, oldCount]
      refine ⟨?_, Nat.add_assoc _ _ _⟩
      rw [Nat.add_right_comm, List.range'_append_1]

theorem Shifted.holds (shifted : Shifted first past last) (order : first.InOrder)
    {incident : Incident} (known : incident ∈ past) : incident.Holds last := by
  induction shifted with
  | refl => simp at known
  | step earlier shift ih =>
      have orderBefore := earlier.inOrder order
      rcases List.mem_append.mp known with old | new
      · exact shift.holds orderBefore (ih old)
      · exact shift.holds_new orderBefore new

theorem Shifted.opened (shifted : Shifted first past last) {stream : Nat}
    (unknown : first.source? stream = none) (found : last.source? stream = some index) :
    ∃ queue, .opened index queue stream ∈ past := by
  induction shifted with
  | refl =>
      rw [unknown] at found
      simp at found
  | step earlier shift ih =>
      obtain ⟨stored, known, rfl⟩ := Option.map_eq_some_iff.mp found
      rcases shift.stream known with ⟨old, knownOld, same, _⟩ | ⟨queue, _, opened⟩
      · obtain ⟨queue, known⟩ := ih (same ▸ source_of_stream knownOld)
        exact ⟨queue, List.mem_append_left _ known⟩
      · subst opened
        exact ⟨queue, List.mem_append_right _ List.mem_cons_self⟩

theorem InOrder.standing_of_current {queue : String} (order : last.InOrder)
    (current : last.queues.get? queue = some index) : ¬last.Closed index := by
  rintro ⟨name, named, other⟩
  obtain rfl := Option.some.inj ((order.sound queue index current).symm.trans named)
  exact other current

theorem Shifted.publishedTo (shifted : Shifted first past last) (order : first.InOrder)
    {queue : String} (current : last.queues.get? queue = some index)
    (unclosed : ∀ place, .closed place queue ∉ past) :
    past.filterMap (Incident.publishedTo? queue) = picked index (arrivals past) := by
  unfold picked arrivals
  rw [List.filterMap_filterMap]
  apply List.filterMap_congr
  intro incident taken
  cases incident with
  | published place name delivery =>
      have named := shifted.holds order taken
      have isQueue := (shifted.inOrder order).sound queue index current
      simp only [Incident.publishedTo?, Incident.arrival?, Option.bind_some]
      by_cases same : name = queue
      · subst same
        have here := shifted.published_current taken unclosed
        obtain rfl := Option.some.inj (here.symm.trans current)
        simp
      · rw [if_neg same, if_neg]
        rintro rfl
        exact same (Option.some.inj (named.symm.trans isQueue))
  | _ => rfl

theorem InOrder.closed_closeQueue {queue : String} (order : first.InOrder)
    (named : first.name? index = some queue) : (first.closeQueue queue).Closed index := by
  have grown := (first.shifted_closeQueue queue).grows order
  exact ⟨queue, grown.names index queue named, by simp [get?_closeQueue]⟩

/-- What is published to a name that stands for nothing yet waits, if only closed incarnations are
read from. -/
theorem Shifted.waitingIn_renewed (shifted : Shifted first past last) (order : first.InOrder)
    {queue : String} (absent : first.queues.get? queue = none)
    (unclosed : ∀ place, .closed place queue ∉ past)
    (elsewhere : ∀ yielded ∈ yields past, first.Closed yielded.1) :
    past.filterMap (Incident.publishedTo? queue) = last.waitingIn queue := by
  have orderLast := shifted.inOrder order
  unfold waitingIn
  cases current : last.queues.get? queue with
  | none =>
      refine List.filterMap_eq_nil_iff.mpr ?_
      intro incident taken
      cases incident with
      | published place name delivery =>
          refine if_neg ?_
          rintro rfl
          have here := shifted.published_current taken unclosed
          rw [current] at here
          simp at here
      | _ => rfl
  | some fresh =>
      have standing := orderLast.standing_of_current current
      have flow := shifted.flow order fresh
      have unread : picked fresh (yields past) = [] := by
        refine List.eq_nil_iff_forall_not_mem.mpr ?_
        intro delivery taken
        exact standing (shifted.closed order (elsewhere _ (mem_picked.mp taken))).1
      -- an older incarnation of that name is closed from the beginning, so this one is new
      have nothing : first.waitingAt fresh = [] := by
        cases held : first.incarnations[fresh]? with
        | none =>
            rw [waitingAt, held]
            rfl
        | some incarnation =>
            have named : first.name? fresh = some incarnation.queue := by rw [name?, held]; rfl
            have later := (shifted.grows order).names fresh _ named
            obtain rfl := Option.some.inj (later.symm.trans (orderLast.sound _ _ current))
            have closed : first.Closed fresh := ⟨_, named, by simp [absent]⟩
            exact absurd (shifted.closed order closed).1 standing
      rw [unread, nothing, List.nil_append, List.nil_append] at flow
      rw [shifted.publishedTo order current unclosed, flow]
      rfl

end Shifted

end TaskQueue.Broker
