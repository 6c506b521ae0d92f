import TaskQueue.Proofs.Broker.Custody
import TaskQueue.Proofs.Lists

/-! The tags of deliveries. A message gets its tag when it is published, and the tags are numbers in
turn; so while there are fewer messages than tags, no tag is given out twice, and what waits in the
queues, of any incarnation, has a tag of its own. -/

namespace TaskQueue.Broker

def stock (broker : Broker) : List Delivery := broker.incarnations.flatMap Incarnation.waiting

structure Issued (published : Nat) (tags : List UInt64) : Prop where
  apart : tags.Nodup
  bounded : ∀ tag ∈ tags, tag.toNat ≤ published

theorem Issued.kept {published later : Nat} {tags kept : List UInt64}
    (issued : Issued published tags) (gone : List UInt64) (same : tags.Perm (gone ++ kept))
    (more : published ≤ later) : Issued later kept := by
  constructor
  · exact (List.nodup_append.mp (same.nodup_iff.mp issued.apart)).2.1
  · intro tag taken
    have old := issued.bounded tag (same.mem_iff.mpr (List.mem_append_right _ taken))
    omega

theorem Issued.add {published : Nat} {tags : List UInt64} (issued : Issued published tags)
    (few : published + 1 < UInt64.size) :
    Issued (published + 1) ((published + 1).toUInt64 :: tags) := by
  have number : (published + 1).toUInt64.toNat = published + 1 := by
    simpa using Nat.mod_eq_of_lt few
  constructor
  · refine List.nodup_cons.mpr ⟨?_, issued.apart⟩
    intro taken
    have old := issued.bounded _ taken
    omega
  · intro tag taken
    rcases List.mem_cons.mp taken with rfl | old
    · exact Nat.le_of_eq number
    · exact Nat.le_succ_of_le (issued.bounded tag old)

/-- What a change does to the stock: deliveries leave it, or one with a new tag comes in. -/
inductive Flow (before after : Broker) : List Delivery → Prop
  | left {taken : List Delivery} : before.stock.Perm (taken ++ after.stock) →
      before.published ≤ after.published → after.published ≤ before.published + 1 →
      Flow before after taken
  | entered {delivery : Delivery} : delivery.tag = (before.published + 1).toUInt64 →
      after.stock.Perm (delivery :: before.stock) → after.published = before.published + 1 →
      Flow before after []

theorem Flow.published {before after : Broker} {taken : List Delivery}
    (flow : Flow before after taken) :
    before.published ≤ after.published ∧ after.published ≤ before.published + 1 := by
  cases flow with
  | left _ more few => exact ⟨more, few⟩
  | entered _ _ next => omega

theorem Flow.issued {before after : Broker} {taken : List Delivery}
    (flow : Flow before after taken) (others : List UInt64) (few : after.published < UInt64.size)
    (issued : Issued before.published (before.stock.map Delivery.tag ++ others)) :
    Issued after.published
      (after.stock.map Delivery.tag ++ (taken.map Delivery.tag ++ others)) := by
  cases flow with
  | left same more _ =>
      refine issued.kept [] ?_ more
      have tags := same.map Delivery.tag
      rw [List.map_append] at tags
      rw [List.nil_append, ← List.append_assoc]
      exact (tags.trans List.perm_append_comm).append_right others
  | entered tagged same next =>
      rw [next] at few ⊢
      refine (issued.add few).kept [] ?_ (Nat.le_refl _)
      have tags := (same.map Delivery.tag).symm
      rw [List.map_cons, tagged] at tags
      exact tags.append_right others

theorem terminationsOf_le_one {broker : Broker} (apart : (broker.log.map Prod.fst).Nodup)
    (tag : UInt64) : (broker.terminationsOf tag).length ≤ 1 := by
  have once := List.nodup_iff_count.mp apart tag
  rwa [List.count_eq_countP, List.countP_map, List.countP_eq_length_filter,
    ← List.length_map Prod.snd] at once

section Operations

variable {broker : Broker} {index : Nat}

theorem Flow.of_same {after : Broker} (stocked : after.stock = broker.stock)
    (published : after.published = broker.published) : Flow broker after [] := by
  refine .left ?_ (Nat.le_of_eq published.symm) (by omega)
  rw [List.nil_append, stocked]

theorem stock_modify_absent (change : Incarnation → Incarnation)
    (absent : broker.incarnations[index]? = none) :
    (broker.modifyIncarnation index change).stock = broker.stock := by
  have beyond := List.getElem?_eq_none_iff.mp absent
  simp only [stock, modifyIncarnation, List.modify_eq_self beyond]

theorem stock_modify (change : Incarnation → Incarnation) {incarnation : Incarnation}
    (found : broker.incarnations[index]? = some incarnation) :
    (incarnation.waiting ++ (broker.modifyIncarnation index change).stock).Perm
      ((change incarnation).waiting ++ broker.stock) :=
  flatMap_modify_perm change Incarnation.waiting found

theorem stock_modify_kept (broker : Broker) {change : Incarnation → Incarnation}
    (waits : ∀ incarnation, (change incarnation).waiting = incarnation.waiting) :
    broker.stock.Perm (broker.modifyIncarnation index change).stock := by
  cases found : broker.incarnations[index]? with
  | none => rw [stock_modify_absent change found]
  | some incarnation =>
      have same := stock_modify change found
      rw [waits] at same
      exact ((List.perm_append_left_iff _).mp same).symm

theorem stock_incarnate (broker : Broker) (queue : String) :
    (broker.incarnate queue).2.stock = broker.stock := by
  unfold incarnate stock
  split <;> simp

@[simp] theorem published_incarnate (broker : Broker) (queue : String) :
    (broker.incarnate queue).2.published = broker.published := by
  unfold incarnate
  split <;> rfl

theorem flow_publish (broker : Broker) (queue : String) (messageId : Option String)
    (body : Bytes) : Flow broker (broker.publish queue messageId body).2 [] := by
  unfold publish
  generalize counts : { broker with published := broker.published + 1 } = counted
  have published : counted.published = broker.published + 1 := by rw [← counts]
  have stocked : (counted.incarnate queue).2.stock = broker.stock := by
    rw [stock_incarnate, ← counts]
    rfl
  simp only [← published_incarnate counted queue] at published
  cases found : (counted.incarnate queue).2.incarnations[(counted.incarnate queue).1]? with
  | none =>
      refine .left ?_ ?_ (Nat.le_of_eq published)
      · simp only [stock_modify_absent _ found, stocked]
        exact .refl _
      · exact Nat.le_of_lt (Nat.lt_of_lt_of_eq (Nat.lt_succ_self _) published.symm)
  | some incarnation =>
      have tagged : (Delivery.mk (broker.published + 1).toUInt64 messageId body).tag =
          (broker.published + 1).toUInt64 := rfl
      refine .entered tagged ?_ published
      have added := stock_modify (fun incarnation : Incarnation =>
        { incarnation with waiting :=
            incarnation.waiting ++ [⟨(broker.published + 1).toUInt64, messageId, body⟩] }) found
      rw [List.append_assoc, stocked] at added
      exact (List.perm_append_left_iff _).mp added

theorem flow_publishTask (broker : Broker) (ids : Nat → MessageId) (queue : String)
    (param : TaskParam) : Flow broker (broker.publishTask ids queue param).2.2 [] := by
  cases flow_publish { broker with identified := broker.identified + 1 } queue
      (some (ids broker.identified).text) (Payload.encode param) with
  | left same more few => exact .left same more few
  | entered tagged same next => exact .entered tagged same next

theorem flow_consume (broker : Broker) (queue consumerTag : String) (options : ConsumeOptions) :
    Flow broker (broker.consume queue consumerTag options).2 [] := by
  unfold consume
  simp only
  split
  · exact .of_same rfl rfl
  · exact .of_same (stock_incarnate _ queue) (published_incarnate _ queue)

theorem flow_poll (broker : Broker) (stream : Nat) :
    Flow broker (broker.poll stream).2 (broker.poll stream).1.deliveries := by
  rcases poll_cases broker stream with ended | ⟨index, live, incarnation, _, held, polled⟩
  · rw [ended]
    exact .of_same rfl rfl
  · rw [polled]
    refine .left ?_ (Nat.le_refl _) (Nat.le_succ _)
    generalize marks : { broker with streams := broker.streams.set stream ⟨index, live⟩ } = marked
    have found : marked.incarnations[index]? = some incarnation := by rw [← marks]; exact held
    have stocked : marked.stock = broker.stock := by rw [← marks]; rfl
    have moved := stock_modify (fun _ => (incarnation.poll stream).2) found
    rw [(incarnation.poll_spec stream).2, stocked] at moved
    refine ((List.perm_append_left_iff (incarnation.poll stream).2.waiting).mp ?_).symm
    calc ((incarnation.poll stream).2.waiting ++ ((incarnation.poll stream).1.deliveries ++
          (marked.modifyIncarnation index fun _ => (incarnation.poll stream).2).stock)).Perm
          (((incarnation.poll stream).1.deliveries ++ (incarnation.poll stream).2.waiting) ++
            (marked.modifyIncarnation index fun _ => (incarnation.poll stream).2).stock) := by
            rw [← List.append_assoc]
            exact List.perm_append_comm.append_right _
      _ |>.Perm _ := moved

theorem flow_dropStream (broker : Broker) (stream : Nat) :
    Flow broker (broker.dropStream stream) [] := by
  unfold dropStream
  split
  · exact .of_same rfl rfl
  · refine .left ?_ (Nat.le_refl _) (Nat.le_succ _)
    exact stock_modify_kept { broker with streams := _ } fun _ => rfl

theorem flow_closeQueue (broker : Broker) (queue : String) :
    Flow broker (broker.closeQueue queue) [] := by
  unfold closeQueue
  split
  · exact .of_same rfl rfl
  · refine .left ?_ (Nat.le_refl _) (Nat.le_succ _)
    exact stock_modify_kept { broker with queues := _ } fun _ => rfl

theorem flow_terminate (broker : Broker) (tag : UInt64) (termination : Termination) :
    Flow broker (broker.terminate tag termination).2 [] := by
  unfold terminate
  split <;> exact .of_same rfl rfl

end Operations

theorem Change.exists_flow {before after : Broker} (change : Change before after) :
    ∃ taken, Flow before after taken := by
  cases change with
  | publish queue messageId body => exact ⟨_, flow_publish before queue messageId body⟩
  | publishTask ids queue param => exact ⟨_, flow_publishTask before ids queue param⟩
  | consume queue consumerTag options => exact ⟨_, flow_consume before queue consumerTag options⟩
  | poll stream => exact ⟨_, flow_poll before stream⟩
  | dropStream stream => exact ⟨_, flow_dropStream before stream⟩
  | closeQueue queue => exact ⟨_, flow_closeQueue before queue⟩
  | terminate tag termination => exact ⟨_, flow_terminate before tag termination⟩
  | failConsumes count => exact ⟨_, .of_same rfl rfl⟩
  | failTerminations count => exact ⟨_, .of_same rfl rfl⟩

theorem Made.issued {broker : Broker} (made : broker.Made) (few : broker.published < UInt64.size) :
    Issued broker.published (broker.stock.map Delivery.tag) := by
  induction made with
  | empty => exact ⟨.nil, nofun⟩
  | change _ changed ih =>
      obtain ⟨taken, flow⟩ := changed.exists_flow
      have issued := ih (Nat.lt_of_le_of_lt flow.published.1 few)
      refine (flow.issued [] few ?_).kept (taken.map Delivery.tag) ?_ (Nat.le_refl _)
      · rwa [List.append_nil]
      · rw [List.append_nil]
        exact List.perm_append_comm

end TaskQueue.Broker
