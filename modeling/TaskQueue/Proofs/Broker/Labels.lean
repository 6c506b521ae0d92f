import TaskQueue.Proofs.Broker.Tags

/-!
What waits in a broker, each delivery with the name of its queue. Closing a queue does not change
the name of the incarnation that it ends, so what is left there still waits under that name; a
delivery comes in under one name and leaves under the same.
-/

namespace TaskQueue.Broker

variable {broker : Broker} {index : Nat} {name : String}

def Incarnation.labelled (incarnation : Incarnation) : List (String × Delivery) :=
  incarnation.waiting.map (incarnation.queue, ·)

/-- All that waits with the names of the queues, also of those that are closed. -/
def labelled (broker : Broker) : List (String × Delivery) :=
  broker.incarnations.flatMap Incarnation.labelled

theorem stock_eq_labelled (broker : Broker) : broker.stock = broker.labelled.map Prod.snd := by
  simp only [stock, labelled, List.map_flatMap, Incarnation.labelled, List.map_map,
    Function.comp_def, List.map_id']

theorem labelled_modify (change : Incarnation → Incarnation) {incarnation : Incarnation}
    (found : broker.incarnations[index]? = some incarnation) :
    (incarnation.labelled ++ (broker.modifyIncarnation index change).labelled).Perm
      ((change incarnation).labelled ++ broker.labelled) :=
  flatMap_modify_perm change Incarnation.labelled found

theorem labelled_modify_kept (broker : Broker) {change : Incarnation → Incarnation}
    (same : ∀ incarnation, (change incarnation).labelled = incarnation.labelled) :
    (broker.modifyIncarnation index change).labelled = broker.labelled :=
  flatMap_modify broker.incarnations index same

theorem labelled_incarnate (broker : Broker) (name : String) :
    (broker.incarnate name).2.labelled = broker.labelled := by
  unfold incarnate labelled
  split <;> simp [Incarnation.labelled]

theorem labelled_publish (sound : broker.Sound) (name : String) (messageId : Option String)
    (body : Bytes) :
    (broker.publish name messageId body).2.labelled.Perm
      ((name, ⟨(broker.publish name messageId body).1, messageId, body⟩) :: broker.labelled) := by
  have soundCounted : Sound { broker with published := broker.published + 1 } := sound
  have current := incarnate_current { broker with published := broker.published + 1 } name
  have begun : Balance name _ _ [] [] := balance_incarnate soundCounted name
  have named := begun.sound _ _ current
  obtain ⟨incarnation, found, isName⟩ := Option.map_eq_some_iff.mp named
  have added := labelled_modify (fun incarnation : Incarnation =>
    { incarnation with waiting :=
        incarnation.waiting ++ [⟨(broker.published + 1).toUInt64, messageId, body⟩] }) found
  rw [labelled_incarnate] at added
  simp only [Incarnation.labelled, List.map_append, List.append_assoc, isName] at added
  exact (List.perm_append_left_iff _).mp added

theorem labelled_publishTask (sound : broker.Sound) (ids : Nat → MessageId) (name : String)
    (param : TaskParam) :
    (broker.publishTask ids name param).2.2.labelled.Perm
      ((name, ⟨(broker.publishTask ids name param).2.1,
        some (broker.publishTask ids name param).1.text, Payload.encode param⟩) ::
          broker.labelled) := by
  have soundCounted : Sound { broker with identified := broker.identified + 1 } := sound
  exact labelled_publish soundCounted name _ _

theorem labelled_consume (broker : Broker) (name consumerTag : String)
    (options : ConsumeOptions) :
    (broker.consume name consumerTag options).2.labelled = broker.labelled := by
  unfold consume
  simp only
  split
  · rfl
  · exact labelled_incarnate _ name

theorem labelled_poll {stream : Nat} (source : broker.source? stream = some index)
    (named : broker.name? index = some name) :
    broker.labelled.Perm
      ((broker.poll stream).1.deliveries.map (name, ·) ++ (broker.poll stream).2.labelled) := by
  rcases poll_cases broker stream with ended | ⟨place, live, incarnation, placed, held, polled⟩
  · rw [ended]
    exact .refl _
  · obtain rfl := Option.some.inj (source.symm.trans placed)
    rw [name?, held] at named
    have isName : incarnation.queue = name := Option.some.inj named
    obtain ⟨keeps, moves⟩ := incarnation.poll_spec stream
    let marked : Broker := { broker with streams := broker.streams.set stream ⟨index, live⟩ }
    have heldMarked : marked.incarnations[index]? = some incarnation := held
    have moved := labelled_modify (fun _ => (incarnation.poll stream).2) heldMarked
    simp only [marked, Incarnation.labelled, keeps, isName, moves, List.map_append,
      List.append_assoc] at moved
    rw [polled]
    refine List.perm_iff_count.mpr ?_
    intro label
    have same := moved.count_eq label
    simp only [List.count_append, labelled] at same ⊢
    omega

theorem labelled_dropStream (broker : Broker) (stream : Nat) :
    (broker.dropStream stream).labelled = broker.labelled := by
  unfold dropStream
  split
  · rfl
  · exact labelled_modify_kept { broker with streams := _ } fun _ => rfl

theorem labelled_closeQueue (broker : Broker) (name : String) :
    (broker.closeQueue name).labelled = broker.labelled := by
  unfold closeQueue
  split
  · rfl
  · exact labelled_modify_kept { broker with queues := _ } fun _ => rfl

theorem labelled_terminate (broker : Broker) (tag : UInt64) (termination : Termination) :
    (broker.terminate tag termination).2.labelled = broker.labelled := by
  unfold terminate
  split <;> rfl

theorem grows_poll (sound : broker.Sound) (stream : Nat) : Grows broker (broker.poll stream).2 := by
  rcases poll_cases broker stream with ended | ⟨index, live, incarnation, source, held, polled⟩
  · rw [ended]
    exact .refl broker
  · have marked : Balance "" _ _ [] [] := balance_setStream sound live source
    rw [polled]
    refine marked.grows.trans (grows_modify ?_)
    intro old foundOld
    obtain rfl := Option.some.inj (held.symm.trans foundOld)
    exact (incarnation.poll_spec stream).1

theorem grows_closeQueue (broker : Broker) (name : String) :
    Grows broker (broker.closeQueue name) := by
  unfold closeQueue
  cases broker.queues.get? name with
  | none => exact .refl broker
  | some index =>
      have forgotten : Grows broker { broker with queues := broker.queues.erase name } :=
        ⟨fun _ _ named => named, fun _ _ source => source⟩
      exact forgotten.trans (grows_modify fun _ _ => rfl)

theorem Change.grows {before after : Broker} (change : Change before after)
    (sound : before.Sound) : Grows before after := by
  cases change with
  | publish queue messageId body =>
      have balance : Balance queue _ _ _ [] := balance_publish sound queue messageId body
      exact balance.grows
  | publishTask ids queue param =>
      have balance : Balance queue _ _ _ [] := balance_publishTask sound ids queue param
      exact balance.grows
  | consume queue consumerTag options =>
      have balance : Balance queue _ _ [] [] := balance_consume sound queue consumerTag options
      exact balance.grows
  | poll stream => exact grows_poll sound stream
  | dropStream stream =>
      have balance : Balance "" _ _ [] [] := balance_dropStream sound stream
      exact balance.grows
  | closeQueue queue => exact grows_closeQueue before queue
  | terminate tag termination =>
      unfold Broker.terminate
      split <;> exact ⟨fun _ _ named => named, fun _ _ source => source⟩
  | failConsumes _ => exact ⟨fun _ _ named => named, fun _ _ source => source⟩
  | failTerminations _ => exact ⟨fun _ _ named => named, fun _ _ source => source⟩

end TaskQueue.Broker
