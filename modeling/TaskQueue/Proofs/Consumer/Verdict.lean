import TaskQueue.Proofs.Consumer.Deeds

/-!
What becomes of a delivery when the stages are the usual ones. The story of a task is what it did up
to its one call: no handler was asked for, none was found, or one was called and answered. The story
decides the call. A limit that is over counts only where a handler is found waiting for something.
-/

namespace TaskQueue.Consumer

variable {σ ν : Type} {config : ConsumerConfig} {recovery : Recovery σ} {transport : Transport}
  {registry : Registry (Handler σ ν)} {broker : Broker} {shared : σ}
  {first system before : State σ ν} {course : Course σ ν}

/-- The stages before the handler let a delivery through and make this of it. -/
structure Ready (delivery : Delivery) (id : MessageId) (param : TaskParam) : Prop where
  named : delivery.messageId = some id.text
  visible : ∃ character ∈ id.text.toList, Text.isBlank character = false
  filled : delivery.body ≠ []
  decoded : Payload.decodeTask delivery.body TaskParam.empty = (.ok (), param)
  valid : Validator.check Validator.defaultMaxBytes param = .ok ()

theorem envelope_eq_ok {delivery : Delivery} {envelope : Envelope} :
    delivery.envelope = .ok envelope ↔
      delivery.messageId = some envelope.id.text ∧
        (∃ character ∈ envelope.id.text.toList, Text.isBlank character = false) ∧
        delivery.body ≠ [] ∧ envelope.payload = delivery.body := by
  obtain ⟨tag, messageId, body⟩ := delivery
  obtain ⟨⟨text⟩, payload⟩ := envelope
  cases messageId with
  | none => simp [Delivery.envelope]
  | some id =>
      simp only [Delivery.envelope, Text.allBlank, List.isEmpty_iff]
      by_cases blank : id.toList.all Text.isBlank = true
      · rw [if_pos blank]
        simp only [reduceCtorEq, Option.some.injEq, false_iff]
        rintro ⟨rfl, ⟨character, taken, visible⟩, _⟩
        have isBlank := List.all_eq_true.mp blank character taken
        rw [visible] at isBlank
        simp at isBlank
      · rw [if_neg blank]
        have visible : ∃ character ∈ id.toList, Text.isBlank character = false := by
          simpa using blank
        by_cases empty : body = []
        · simp [empty]
        · rw [if_neg empty]
          constructor
          · rintro ⟨⟩
            exact ⟨rfl, visible, empty, rfl⟩
          · rintro ⟨⟨⟩, _, _, rfl⟩
            rfl

theorem decodeTask_start {body : Bytes} {param filled : TaskParam} (other : TaskParam)
    (decoded : Payload.decodeTask body param = (.ok (), filled)) :
    Payload.decodeTask body other = (.ok (), filled) := by
  unfold Payload.decodeTask Payload.decodeInto at decoded ⊢
  cases skipped : Json.skipSpace body with
  | nil => simp [skipped] at decoded
  | cons next rest =>
      simp only [skipped] at decoded ⊢
      by_cases opening : next = byte '\x7b'
      · rw [if_pos opening] at decoded ⊢
        exact decoded
      · simp [opening] at decoded

theorem Ready.envelope {delivery : Delivery} {id : MessageId} {param : TaskParam}
    (ready : Ready delivery id param) : delivery.envelope = .ok ⟨id, delivery.body⟩ :=
  envelope_eq_ok.mpr ⟨ready.named, ready.visible, ready.filled, rfl⟩

theorem byId_eq_done {delivery : Delivery} {envelope : Envelope} :
    Unpacking.byId delivery = .done envelope ↔ delivery.envelope = .ok envelope := by
  unfold Unpacking.byId Unpacking.ofExcept
  split <;> simp_all

theorem byId_ne_panicked {delivery : Delivery} {cause : Panic} :
    Unpacking.byId delivery ≠ .panicked cause := by
  unfold Unpacking.byId Unpacking.ofExcept
  split <;> simp

theorem json_eq_done {body : Bytes} {param filled : TaskParam} :
    Payload.Format.json body param = (.done (), filled) ↔
      Payload.decodeTask body param = (.ok (), filled) := by
  unfold Payload.Format.json
  split <;> simp_all

theorem json_ne_panicked {body : Bytes} {param filled : TaskParam} {cause : Panic} :
    Payload.Format.json body param ≠ (.panicked cause, filled) := by
  unfold Payload.Format.json
  split <;> simp

theorem ofMaxBytes_eq_done {maxBytes : Nat} {param : TaskParam} :
    Validator.ofMaxBytes maxBytes param = .done () ↔
      Validator.check maxBytes param = .ok () := by
  unfold Validator.ofMaxBytes
  split <;> simp_all

theorem ofMaxBytes_ne_panicked {maxBytes : Nat} {param : TaskParam} {cause : Panic} :
    Validator.ofMaxBytes maxBytes param ≠ .panicked cause := by
  unfold Validator.ofMaxBytes
  split <;> simp

section Unready

variable {delivery : Delivery} {id : MessageId} {param : TaskParam} {error : TaskError}

theorem not_ready_of_unpackFailed (unpacked : Unpacking.byId delivery = .failed error) :
    ¬Ready delivery id param := by
  intro ready
  have clash := unpacked.symm.trans (byId_eq_done.mpr ready.envelope)
  cases clash

theorem not_ready_of_decodeFailed {start filled : TaskParam}
    (decoded : Payload.Format.json delivery.body start = (.failed error, filled)) :
    ¬Ready delivery id param := by
  intro ready
  have decodedAfterAll := json_eq_done.mpr (decodeTask_start start ready.decoded)
  have clash := (Prod.mk.inj (decoded.symm.trans decodedAfterAll)).1
  cases clash

theorem not_ready_of_checkFailed {filled : TaskParam}
    (decoded : Payload.decodeTask delivery.body TaskParam.empty = (.ok (), filled))
    (checked : Validator.ofMaxBytes Validator.defaultMaxBytes filled = .failed error) :
    ¬Ready delivery id param := by
  intro ready
  have checkedAfterAll := ofMaxBytes_eq_done.mpr ready.valid
  rw [← (Prod.mk.inj (decoded.symm.trans ready.decoded)).2] at checkedAfterAll
  have clash := checked.symm.trans checkedAfterAll
  cases clash

end Unready

namespace Invocation

def work (invocation : Invocation σ ν) : Work σ ν :=
  invocation.handler invocation.context invocation.param

def deadline (config : ConsumerConfig) (invocation : Invocation σ ν) : Option Deadline :=
  config.messageTimeoutMs.map fun milliseconds =>
    ⟨invocation.moment + milliseconds.toNat, Duration.ofMilliseconds milliseconds⟩

structure Fits (delivery : Delivery) (queue : String) (invocation : Invocation σ ν) : Prop where
  ready : Ready delivery invocation.context.messageId invocation.param
  queue : invocation.context.queue = queue

end Invocation

/-- An answer that an invocation can come to at a moment: what its work comes to, or that it overran
a limit that is over by then. -/
def Answer.Of (config : ConsumerConfig) (invocation : Invocation σ ν) (moment : Nat) :
    Answer → Prop
  | .returned result => Work.Leads invocation.work (.finish result)
  | .panicked cause => Work.Leads invocation.work (.panic cause)
  | .overran limit =>
      ∃ deadline, invocation.deadline config = some deadline ∧ deadline.limit = limit ∧
        deadline.moment ≤ moment

def Verdict.ofResult : Except TaskError Unit → Verdict
  | .ok () => .ack
  | .error _ => .reject

/-- What a task does with a delivery before it ends it, and how it is to be ended. -/
inductive Story (config : ConsumerConfig) (delivery : Delivery) (queue : String) :
    List (Deed σ ν) → Verdict → Prop
  | unready : (∀ id param, ¬Ready delivery id param) → Story config delivery queue [] .reject
  | unhandled {id : MessageId} {param : TaskParam} : Ready delivery id param →
      Story config delivery queue [.unhandled param.taskName] .reject
  | returned {invocation : Invocation σ ν} {moment : Nat} {result : Except TaskError Unit} :
      invocation.Fits delivery queue → Work.Leads invocation.work (.finish result) →
      Story config delivery queue [.invoked invocation, .answered moment (.returned result)]
        (Verdict.ofResult result)
  | panicked {invocation : Invocation σ ν} {moment : Nat} {cause : Panic} :
      invocation.Fits delivery queue → Work.Leads invocation.work (.panic cause) →
      Story config delivery queue
        [.invoked invocation, .answered moment (.panicked cause), .recovered cause.message none]
        .reject
  | overran {invocation : Invocation σ ν} {deadline : Deadline} {moment : Nat} :
      invocation.Fits delivery queue → invocation.deadline config = some deadline →
      deadline.moment ≤ moment →
      Story config delivery queue
        [.invoked invocation, .answered moment (.overran deadline.limit)] .reject

/-- What a task has done when it is at some phase. With the usual stages only handlers break
down. -/
def Task.Told (config : ConsumerConfig) (deeds : List (Deed σ ν)) (task : Task σ ν) : Prop :=
  match task.phase with
  | .fresh => deeds = []
  | .unpacked envelope => deeds = [] ∧ task.delivery.envelope = .ok envelope
  | .borrowed item => deeds = [] ∧ task.delivery.envelope = .ok item.envelope
  | .decoded item =>
      deeds = [] ∧ task.delivery.envelope = .ok item.envelope ∧
        Payload.decodeTask task.delivery.body TaskParam.empty = (.ok (), item.lease.param)
  | .checked item => deeds = [] ∧ Ready task.delivery item.envelope.id item.lease.param
  | .running _ work deadline | .sleeping _ _ work deadline =>
      ∃ invocation, deeds = [.invoked invocation] ∧ invocation.Fits task.delivery task.queue ∧
        Work.Leads invocation.work work ∧ deadline = invocation.deadline config
  | .handlerPanicked _ cause =>
      ∃ invocation moment, deeds = [.invoked invocation, .answered moment (.panicked cause)] ∧
        invocation.Fits task.delivery task.queue ∧ Work.Leads invocation.work (.panic cause)
  | .handlerRecovered _ _ => Story config task.delivery task.queue deeds .reject
  | .ended _ result =>
      Story config task.delivery task.queue deeds (Verdict.ofResult result)
  | .dropping _ => Story config task.delivery task.queue deeds .reject
  | .judged verdict => Story config task.delivery task.queue deeds verdict
  | .settled _ | .refused _ | .leaving | .finished =>
      ∃ told verdict result, Story config task.delivery task.queue told verdict ∧
        deeds = told ++ [.called ⟨task.delivery.tag, verdict.termination, result⟩]
  | .unwinding _ _ | .caught _ | .recovered | .escaped _ | .uncaught _ => False

theorem TaskMove.told {task : Task σ ν} {deed : Option (Deed σ ν)} {next : TaskPhase σ ν}
    {deeds : List (Deed σ ν)} (returns : recovery.Returns)
    (move : TaskMove (Setup.usual config recovery transport) before task.delivery task.queue
      task.phase deed next)
    (told : task.Told config deeds) :
    Task.Told config (deeds ++ deed.toList) { task with phase := next } := by
  obtain ⟨delivery, queue, puller, phase⟩ := task
  simp only [Task.Told] at told ⊢
  cases move with
  | unpack unpacked => exact ⟨by simp [told], byId_eq_done.mp unpacked⟩
  | unpackFailed unpacked =>
      rw [told]
      exact .unready fun _ _ => not_ready_of_unpackFailed unpacked
  | unpackBroke unpacked => exact absurd unpacked byId_ne_panicked
  | borrow => simpa using told
  | decode decoded =>
      obtain ⟨noDeeds, enveloped⟩ := told
      have decodedAll := decodeTask_start TaskParam.empty (json_eq_done.mp decoded)
      rw [(envelope_eq_ok.mp enveloped).2.2.2] at decodedAll
      exact ⟨by simp [noDeeds], enveloped, decodedAll⟩
  | decodeFailed decoded =>
      obtain ⟨noDeeds, enveloped⟩ := told
      rw [(envelope_eq_ok.mp enveloped).2.2.2] at decoded
      rw [noDeeds]
      exact .unready fun _ _ => not_ready_of_decodeFailed decoded
  | decodeBroke decoded => exact absurd decoded json_ne_panicked
  | check checked =>
      obtain ⟨noDeeds, enveloped, decoded⟩ := told
      obtain ⟨named, visible, filled, _⟩ := envelope_eq_ok.mp enveloped
      exact ⟨by simp [noDeeds], named, visible, filled, decoded, ofMaxBytes_eq_done.mp checked⟩
  | checkFailed checked =>
      obtain ⟨noDeeds, enveloped, decoded⟩ := told
      rw [noDeeds]
      exact .unready fun _ _ => not_ready_of_checkFailed decoded checked
  | checkBroke checked => exact absurd checked ofMaxBytes_ne_panicked
  | invoke found =>
      rename_i item handler
      obtain ⟨noDeeds, ready⟩ := told
      exact ⟨⟨before.now, handler, ⟨item.envelope.id, queue⟩, item.lease.param⟩, by simp [noDeeds],
        ⟨ready, rfl⟩, .refl, rfl⟩
  | unhandled missing =>
      obtain ⟨noDeeds, ready⟩ := told
      rw [noDeeds]
      exact .unhandled ready
  | work next =>
      obtain ⟨invocation, invoked, fits, leads, limited⟩ := told
      exact ⟨invocation, by simp [invoked], fits, .step leads next.next, limited⟩
  | sleep =>
      obtain ⟨invocation, invoked, fits, leads, limited⟩ := told
      exact ⟨invocation, by simp [invoked], fits, .step leads (.sleep _ _), limited⟩
  | wake due => simpa using told
  | finish =>
      obtain ⟨invocation, invoked, fits, leads, limited⟩ := told
      rw [invoked]
      exact .returned fits leads
  | panic =>
      obtain ⟨invocation, invoked, fits, leads, limited⟩ := told
      exact ⟨invocation, before.now, by simp [invoked], fits, leads⟩
  | overrunWaiting _ due | overrunSleeping due _ =>
      obtain ⟨invocation, invoked, fits, leads, limited⟩ := told
      rw [invoked]
      exact .overran fits limited.symm due
  | recoverHandler recovered =>
      obtain ⟨invocation, moment, answered, fits, leads⟩ := told
      rw [answered]
      exact .panicked fits leads
  | recoverHandlerBroke broke =>
      have clash := broke.symm.trans (returns before.cancelled _ before.shared)
      cases clash
  | countHandler | succeed | fail | drop =>
      rw [Option.toList_none, List.append_nil]
      exact told
  | settle ended | refuse ended => exact ⟨_, _, _, told, rfl⟩
  | countSettled | countRefused | leave => simpa using told
  | unwind | recover _ | recoverBroke _ | count | escape | recoverEscaped => exact told.elim

theorem Run.told (returns : recovery.Returns) (noTasks : first.tasks = [])
    (run : Run (Setup.usual config recovery transport) first course system) {index : Nat}
    {task : Task σ ν} (found : system.tasks[index]? = some task) :
    task.Told config (course.deeds (Setup.usual config recovery transport) index) := by
  refine (run.forall_tasks (Task.Told config) noTasks (fun _ _ _ => rfl) ?_).1 index task found
  intro before place mover deed next deeds _ move told
  exact move.told returns told

structure Begun (config : ConsumerConfig) (delivery : Delivery) (queue : String)
    (deeds : List (Deed σ ν)) : Prop where
  uncalled : deeds.filterMap Deed.call? = []
  invokedOnce : (deeds.filterMap Deed.invocation?).length ≤ 1
  fits : ∀ invocation ∈ deeds.filterMap Deed.invocation?, invocation.Fits delivery queue
  answeredOnce : (deeds.filterMap Deed.answer?).length ≤ (deeds.filterMap Deed.invocation?).length
  answered : ∀ given ∈ deeds.filterMap Deed.answer?,
    ∃ invocation ∈ deeds.filterMap Deed.invocation?, given.2.Of config invocation given.1

namespace Begun

variable {delivery : Delivery} {queue : String} {deeds : List (Deed σ ν)}
  {invocation : Invocation σ ν}

theorem without (uncalled : deeds.filterMap Deed.call? = [])
    (uninvoked : deeds.filterMap Deed.invocation? = [])
    (unanswered : deeds.filterMap Deed.answer? = []) : Begun config delivery queue deeds := by
  constructor <;> simp [uncalled, uninvoked, unanswered]

theorem invoked (fits : invocation.Fits delivery queue) :
    Begun config delivery queue [.invoked invocation] := by
  refine ⟨rfl, Nat.le_refl 1, ?_, Nat.zero_le 1, nofun⟩
  intro other taken
  rw [List.mem_singleton.mp taken]
  exact fits

theorem answered_by {moment : Nat} {answer : Answer} (uncalled : deeds.filterMap Deed.call? = [])
    (invoked : deeds.filterMap Deed.invocation? = [invocation])
    (answered : deeds.filterMap Deed.answer? = [(moment, answer)])
    (fits : invocation.Fits delivery queue) (ends : answer.Of config invocation moment) :
    Begun config delivery queue deeds := by
  constructor <;> simp [uncalled, invoked, answered, fits, ends]

end Begun

section Story

variable {delivery : Delivery} {queue : String} {deeds : List (Deed σ ν)} {verdict : Verdict}

theorem Story.begun (story : Story config delivery queue deeds verdict) :
    Begun config delivery queue deeds := by
  cases story with
  | unready _ | unhandled _ => exact .without rfl rfl rfl
  | returned fits leads | panicked fits leads => exact .answered_by rfl rfl rfl fits leads
  | overran fits limited due => exact .answered_by rfl rfl rfl fits ⟨_, limited, rfl, due⟩

theorem Story.answers (story : Story config delivery queue deeds verdict) :
    (deeds.filterMap Deed.answer?).length = (deeds.filterMap Deed.invocation?).length := by
  cases story <;> rfl

theorem Story.ack_iff (story : Story config delivery queue deeds verdict) :
    verdict = .ack ↔ ∃ invocation moment, .invoked invocation ∈ deeds ∧
      .answered moment (.returned (.ok ())) ∈ deeds ∧ invocation.Fits delivery queue ∧
      Work.Leads invocation.work (.finish (.ok ())) := by
  cases story with
  | unready _ | unhandled _ | panicked _ _ | overran _ _ _ => simp
  | returned fits leads =>
      rename_i invocation moment result
      cases result with
      | error error => simp [Verdict.ofResult]
      | ok value =>
          exact ⟨fun _ => ⟨invocation, moment, by simp, by simp, fits, leads⟩, fun _ => rfl⟩

end Story

theorem Task.Told.cases {deeds : List (Deed σ ν)} {task : Task σ ν}
    (told : task.Told config deeds) :
    (task.phase.isFinished = false ∧ Begun config task.delivery task.queue deeds) ∨
      ∃ story verdict result, Story config task.delivery task.queue story verdict ∧
        deeds = story ++ [.called ⟨task.delivery.tag, Verdict.termination verdict, result⟩] := by
  obtain ⟨delivery, queue, puller, phase⟩ := task
  simp only [Task.Told] at told ⊢
  cases phase with
  | settled _ | refused _ | leaving | finished => exact .inr told
  | unwinding _ _ | caught _ | recovered | escaped _ | uncaught _ => exact told.elim
  | fresh =>
      subst deeds
      exact .inl ⟨rfl, .without rfl rfl rfl⟩
  | unpacked _ | borrowed _ | decoded _ | checked _ =>
      obtain ⟨rfl, _⟩ := told
      exact .inl ⟨rfl, .without rfl rfl rfl⟩
  | running _ _ _ | sleeping _ _ _ _ =>
      obtain ⟨invocation, rfl, fits, _⟩ := told
      exact .inl ⟨rfl, .invoked fits⟩
  | handlerPanicked _ _ =>
      obtain ⟨invocation, moment, rfl, fits, leads⟩ := told
      exact .inl ⟨rfl, .answered_by rfl rfl rfl fits leads⟩
  | handlerRecovered _ _ | ended _ _ | dropping _ | judged _ =>
      exact .inl ⟨rfl, Story.begun told⟩

/-- The task asked for the handler of a name at a moment, and this was the answer. -/
def LookedUp (course : Course σ ν) (index moment : Nat) (name : String)
    (answer : Option (Handler σ ν)) : Prop :=
  ∃ step ∈ course, step.2 = .task index ∧ step.1.now = moment ∧
    step.1.registry.lookup name = answer

theorem lookedUp_of_invoked {setup : Setup σ} {index : Nat} {invocation : Invocation σ ν}
    (run : Run setup first course system)
    (invoked : .invoked invocation ∈ course.deeds setup index) :
    LookedUp course index invocation.moment invocation.param.taskName
      (some invocation.handler) := by
  obtain ⟨before, ⟨_, _, _, _⟩, next, taken, _, move⟩ := run.mem_deeds invoked
  cases move with
  | invoke found => exact ⟨_, taken, rfl, rfl, found⟩

theorem lookedUp_of_unhandled {setup : Setup σ} {index : Nat} {name : String}
    (run : Run setup first course system)
    (unhandled : .unhandled name ∈ course.deeds setup index) :
    ∃ moment, LookedUp course index moment name none := by
  obtain ⟨before, ⟨_, _, _, _⟩, next, taken, _, move⟩ := run.mem_deeds unhandled
  cases move with
  | unhandled missing => exact ⟨_, _, taken, rfl, rfl, missing⟩

end TaskQueue.Consumer
