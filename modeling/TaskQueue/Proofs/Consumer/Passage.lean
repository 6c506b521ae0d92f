import TaskQueue.Proofs.Consumer.Leases
import TaskQueue.Proofs.Consumer.World

/-!
The passage of a delivery through a task, whatever the stages are and whatever the recovery does.
The stages before the handler make something of the delivery, or refuse it, or break down; the
handler comes to its answer; a breakdown is seen to where it is caught. At the end the delivery has
a verdict, unless the recovery broke down outside the handler: such a breakdown ends the task
itself.
-/

namespace TaskQueue.Consumer

variable {σ ν : Type} {setup : Setup σ} {drift : Drift σ} {first system before after : State σ ν}
  {course : Course σ ν}

/-- What the stages before the handler make of a delivery. -/
def Setup.prepare (setup : Setup σ) (queue : String) (delivery : Delivery) :
    Outcome (Context × TaskParam) :=
  match setup.unpack delivery with
  | .failed error => .failed error
  | .panicked cause => .panicked cause
  | .done envelope =>
      match setup.format envelope.payload TaskParam.empty with
      | (.failed error, _) => .failed error
      | (.panicked cause, _) => .panicked cause
      | (.done (), param) =>
          match setup.validator param with
          | .failed error => .failed error
          | .panicked cause => .panicked cause
          | .done () => .done (⟨envelope.id, queue⟩, param)

def Answer.Allowed (config : ConsumerConfig) : Answer → Prop
  | .overran limit => config.messageTimeoutMs.map Duration.ofMilliseconds = some limit
  | _ => True

theorem Invocation.allowed_overrun {config : ConsumerConfig} {invocation : Invocation σ ν}
    {deadline : Deadline} (limited : some deadline = invocation.deadline config) :
    (Answer.overran deadline.limit).Allowed config := by
  unfold Invocation.deadline at limited
  unfold Answer.Allowed
  cases timeout : config.messageTimeoutMs with
  | none => simp [timeout] at limited
  | some milliseconds =>
      simp only [timeout, Option.map_some, Option.some.injEq] at limited
      rw [Option.map_some, limited]

def Recovers (setup : Setup σ) (drift : Drift σ) (message : String) (further : Option Panic)
    (world last : World σ) : Prop :=
  ∃ told, drift.allows world told ∧
    (setup.recovery told.cancelled message told.shared).panic? = further ∧
    drift.allows { told with shared := (setup.recovery told.cancelled message told.shared).state }
      last

/-- What is done about a breakdown outside the handler. If the recovery breaks down there, that
breakdown is seen to in its turn, but there is no verdict. -/
inductive Caught (setup : Setup σ) (drift : Drift σ) (cause : Panic) (world : World σ) :
    List (Deed σ ν) → Option Verdict → World σ → Prop
  | seen {last : World σ} : Recovers setup drift cause.message none world last →
      Caught setup drift cause world [.recovered cause.message none] (some .reject) last
  | lost {further : Panic} {again : Option Panic} {middle last : World σ} :
      Recovers setup drift cause.message (some further) world middle →
      Recovers setup drift further.message again middle last →
      Caught setup drift cause world
        [.recovered cause.message (some further), .recovered further.message again] none last

inductive Tended (setup : Setup σ) (drift : Drift σ) (world : World σ) :
    Answer → List (Deed σ ν) → Option Verdict → World σ → Prop
  | returned {result : Except TaskError Unit} {last : World σ} : drift.allows world last →
      Tended setup drift world (.returned result) [] (some (Verdict.ofResult result)) last
  | overran {limit : Duration} {last : World σ} : drift.allows world last →
      Tended setup drift world (.overran limit) [] (some .reject) last
  | panicked {cause : Panic} {last : World σ} : Recovers setup drift cause.message none world last →
      Tended setup drift world (.panicked cause) [.recovered cause.message none] (some .reject) last
  | unwound {cause further : Panic} {middle last : World σ} {seen : List (Deed σ ν)}
      {verdict : Option Verdict} :
      Recovers setup drift cause.message (some further) world middle →
      Caught setup drift further middle seen verdict last →
      Tended setup drift world (.panicked cause)
        (.recovered cause.message (some further) :: seen) verdict last

/-- What a task does about a delivery before it ends it, and how it is to be ended. -/
inductive Passage (setup : Setup σ) (drift : Drift σ) (delivery : Delivery) (queue : String)
    (start : World σ) : List (Deed σ ν) → Option Verdict → World σ → Prop
  | refused {error : TaskError} {last : World σ} :
      setup.prepare queue delivery = .failed error → drift.allows start last →
      Passage setup drift delivery queue start [] (some .reject) last
  | broke {cause : Panic} {seen : List (Deed σ ν)} {verdict : Option Verdict} {last : World σ} :
      setup.prepare queue delivery = .panicked cause →
      Caught setup drift cause start seen verdict last →
      Passage setup drift delivery queue start (.broke cause :: seen) verdict last
  | unhandled {context : Context} {param : TaskParam} {last : World σ} :
      setup.prepare queue delivery = .done (context, param) → drift.allows start last →
      Passage setup drift delivery queue start [.unhandled param.taskName] (some .reject) last
  | invoked {invocation : Invocation σ ν} {moment : Nat} {answer : Answer} {middle last : World σ}
      {more : List (Deed σ ν)} {verdict : Option Verdict} :
      setup.prepare queue delivery = .done (invocation.context, invocation.param) →
      answer.Allowed setup.config →
      Work.Performs drift invocation.work start answer middle →
      Tended setup drift middle answer more verdict last →
      Passage setup drift delivery queue start
        (.invoked invocation :: .answered moment answer :: more) verdict last

section Calls

variable {cause : Panic} {delivery : Delivery} {queue : String} {start world last : World σ}
  {deeds : List (Deed σ ν)} {verdict : Option Verdict}

theorem Caught.calls (caught : Caught setup drift cause world deeds verdict last) :
    deeds.filterMap Deed.call? = [] := by
  cases caught <;> rfl

theorem Passage.calls (passage : Passage setup drift delivery queue start deeds verdict last) :
    deeds.filterMap Deed.call? = [] := by
  cases passage with
  | refused _ _ | unhandled _ _ => rfl
  | broke _ caught => exact caught.calls
  | invoked _ _ _ tended =>
      cases tended with
      | returned _ | overran _ | panicked _ => rfl
      | unwound _ caught => exact caught.calls

end Calls

theorem Recovers.none_of_returns {drift : Drift σ} {message : String} {further : Option Panic}
    {world last : World σ} (returns : setup.recovery.Returns)
    (recovers : Recovers setup drift message further world last) : further = none := by
  obtain ⟨told, _, broke, _⟩ := recovers
  exact broke.symm.trans (returns told.cancelled message told.shared)

theorem Caught.of_returns {drift : Drift σ} {cause : Panic} {world last : World σ}
    {deeds : List (Deed σ ν)} {verdict : Option Verdict} (returns : setup.recovery.Returns)
    (caught : Caught setup drift cause world deeds verdict last) :
    deeds = [.recovered cause.message none] ∧ verdict = some .reject := by
  cases caught with
  | seen _ => exact ⟨rfl, rfl⟩
  | lost recovers _ => cases recovers.none_of_returns returns

section Drift

variable {message : String} {further : Option Panic} {cause : Panic} {answer : Answer}
  {delivery : Delivery} {queue : String} {start world last later : World σ}
  {deeds : List (Deed σ ν)} {verdict : Option Verdict}

theorem Recovers.drift_first (drifts : drift.allows start world)
    (recovers : Recovers setup drift message further world last) :
    Recovers setup drift message further start last := by
  obtain ⟨told, before, broke, after⟩ := recovers
  exact ⟨told, drift.trans drifts before, broke, after⟩

theorem Recovers.drift_last (recovers : Recovers setup drift message further world last)
    (drifts : drift.allows last later) : Recovers setup drift message further world later := by
  obtain ⟨told, before, broke, after⟩ := recovers
  exact ⟨told, before, broke, drift.trans after drifts⟩

theorem Caught.drift_first (drifts : drift.allows start world)
    (caught : Caught setup drift cause world deeds verdict last) :
    Caught setup drift cause start deeds verdict last := by
  cases caught with
  | seen recovers => exact .seen (recovers.drift_first drifts)
  | lost recovers again => exact .lost (recovers.drift_first drifts) again

theorem Caught.drift_last (caught : Caught setup drift cause world deeds verdict last)
    (drifts : drift.allows last later) : Caught setup drift cause world deeds verdict later := by
  cases caught with
  | seen recovers => exact .seen (recovers.drift_last drifts)
  | lost recovers again => exact .lost recovers (again.drift_last drifts)

theorem Tended.drift_last (tended : Tended setup drift world answer deeds verdict last)
    (drifts : drift.allows last later) : Tended setup drift world answer deeds verdict later := by
  cases tended with
  | returned before => exact .returned (drift.trans before drifts)
  | overran before => exact .overran (drift.trans before drifts)
  | panicked recovers => exact .panicked (recovers.drift_last drifts)
  | unwound recovers caught => exact .unwound recovers (caught.drift_last drifts)

theorem Passage.drift_last
    (passage : Passage setup drift delivery queue start deeds verdict last)
    (drifts : drift.allows last later) :
    Passage setup drift delivery queue start deeds verdict later := by
  cases passage with
  | refused prepared before => exact .refused prepared (drift.trans before drifts)
  | broke prepared caught => exact .broke prepared (caught.drift_last drifts)
  | unhandled prepared before => exact .unhandled prepared (drift.trans before drifts)
  | invoked prepared allowed performs tended =>
      exact .invoked prepared allowed performs (tended.drift_last drifts)

end Drift

def Ended (setup : Setup σ) (drift : Drift σ) (delivery : Delivery) (queue : String)
    (start : World σ) (deeds : List (Deed σ ν)) (last : World σ) : Prop :=
  ∃ told verdict result, Passage setup drift delivery queue start told (some verdict) last ∧
    deeds = told ++ [.called ⟨delivery.tag, verdict.termination, result⟩]

theorem Ended.drift_last {delivery : Delivery} {queue : String} {start last later : World σ}
    {deeds : List (Deed σ ν)} (ended : Ended setup drift delivery queue start deeds last)
    (drifts : drift.allows last later) : Ended setup drift delivery queue start deeds later := by
  obtain ⟨told, verdict, result, passage, whole⟩ := ended
  exact ⟨told, verdict, result, passage.drift_last drifts, whole⟩

def Underway (setup : Setup σ) (drift : Drift σ) (delivery : Delivery) (queue : String)
    (start : World σ) (deeds : List (Deed σ ν)) (rest : Work σ ν) (deadline : Option Deadline)
    (world : World σ) : Prop :=
  ∃ invocation, deeds = [.invoked invocation] ∧
    setup.prepare queue delivery = .done (invocation.context, invocation.param) ∧
    deadline = invocation.deadline setup.config ∧
    Work.Continues drift invocation.work start rest world

/-- What a task that began in one world has done when it is at some phase in another. Where it is
not settled yet whether there will be a verdict, the phase says what is still to come. -/
def Task.Passing (setup : Setup σ) (drift : Drift σ) (start world : World σ)
    (deeds : List (Deed σ ν)) (task : Task σ ν) : Prop :=
  let passage := Passage setup drift task.delivery task.queue start
  match task.phase with
  | .fresh => deeds = [] ∧ drift.allows start world
  | .unpacked envelope =>
      deeds = [] ∧ drift.allows start world ∧ setup.unpack task.delivery = .done envelope
  | .borrowed item =>
      deeds = [] ∧ drift.allows start world ∧ setup.unpack task.delivery = .done item.envelope ∧
        item.lease.param = TaskParam.empty
  | .decoded item =>
      deeds = [] ∧ drift.allows start world ∧ setup.unpack task.delivery = .done item.envelope ∧
        setup.format item.envelope.payload TaskParam.empty = (.done (), item.lease.param)
  | .checked item =>
      deeds = [] ∧ drift.allows start world ∧
        setup.prepare task.queue task.delivery =
          .done (⟨item.envelope.id, task.queue⟩, item.lease.param)
  | .running _ work deadline =>
      Underway setup drift task.delivery task.queue start deeds work deadline world
  | .sleeping _ _ work deadline =>
      ∃ milliseconds, Underway setup drift task.delivery task.queue start deeds
        (.sleep milliseconds work) deadline world
  | .handlerPanicked _ cause =>
      ∃ invocation moment, deeds = [.invoked invocation, .answered moment (.panicked cause)] ∧
        setup.prepare task.queue task.delivery = .done (invocation.context, invocation.param) ∧
        Work.Performs drift invocation.work start (.panicked cause) world
  | .handlerRecovered _ _ | .dropping _ | .recovered => passage deeds (some .reject) world
  | .ended _ result => passage deeds (some (Verdict.ofResult result)) world
  | .unwinding _ cause | .caught cause =>
      ∀ seen verdict last, Caught setup drift cause world seen verdict last →
        passage (deeds ++ seen) verdict last
  | .judged verdict => passage deeds (some verdict) world
  | .settled _ | .refused _ | .leaving =>
      Ended setup drift task.delivery task.queue start deeds world
  | .escaped cause | .uncaught cause =>
      ∀ further last, Recovers setup drift cause.message further world last →
        passage (deeds ++ [.recovered cause.message further]) none last
  | .finished =>
      Ended setup drift task.delivery task.queue start deeds world ∨ passage deeds none world

theorem Task.Passing.drift_last {start world later : World σ} {deeds : List (Deed σ ν)}
    {task : Task σ ν} (passing : task.Passing setup drift start world deeds)
    (drifts : drift.allows world later) : task.Passing setup drift start later deeds := by
  obtain ⟨delivery, queue, puller, phase⟩ := task
  have underway {rest : Work σ ν} {deadline : Option Deadline}
      (underway : Underway setup drift delivery queue start deeds rest deadline world) :
      Underway setup drift delivery queue start deeds rest deadline later := by
    obtain ⟨invocation, invoked, prepared, limited, continues⟩ := underway
    exact ⟨invocation, invoked, prepared, limited, continues.trans (.of_drift drifts)⟩
  simp only [Passing] at passing ⊢
  cases phase with
  | fresh => exact ⟨passing.1, drift.trans passing.2 drifts⟩
  | unpacked _ | borrowed _ | decoded _ | checked _ =>
      exact ⟨passing.1, drift.trans passing.2.1 drifts, passing.2.2⟩
  | running _ _ _ => exact underway passing
  | sleeping _ _ _ _ =>
      obtain ⟨milliseconds, asleep⟩ := passing
      exact ⟨milliseconds, underway asleep⟩
  | handlerPanicked _ _ =>
      obtain ⟨invocation, moment, answered, prepared, performs⟩ := passing
      exact ⟨invocation, moment, answered, prepared, performs.drift_last drifts⟩
  | handlerRecovered _ _ | dropping _ | recovered | ended _ _ | judged _ =>
      exact Passage.drift_last passing drifts
  | unwinding _ _ | caught _ =>
      exact fun seen verdict last caught => passing seen verdict last (caught.drift_first drifts)
  | settled _ | refused _ | leaving => exact Ended.drift_last passing drifts
  | escaped _ | uncaught _ =>
      exact fun further last recovers => passing further last (recovers.drift_first drifts)
  | finished =>
      exact passing.imp (fun ended => ended.drift_last drifts)
        fun passage => passage.drift_last drifts

theorem recovers_now {message : String} {further : Option Panic}
    (broke : (system.recover setup message none).1 = further) :
    Recovers setup drift message further system.world
      { system.world with
        shared := (setup.recovery system.world.cancelled message system.world.shared).state } :=
  ⟨system.world, drift.refl _, broke, drift.refl _⟩

section Moves

variable {delivery : Delivery} {queue : String} {puller : Nat} {deed : Option (Deed σ ν)}
  {next : TaskPhase σ ν} {deeds : List (Deed σ ν)} {start : World σ} {item : Item}

theorem TaskMove.passing_fresh (move : TaskMove setup before delivery queue .fresh deed next)
    (passing :
      Task.Passing setup drift start before.world deeds ⟨delivery, queue, puller, .fresh⟩) :
    Task.Passing setup drift start before.world (deeds ++ deed.toList)
      ⟨delivery, queue, puller, next⟩ := by
  obtain ⟨rfl, drifts⟩ := passing
  cases move with
  | unpack unpacked => exact ⟨rfl, drifts, unpacked⟩
  | unpackFailed unpacked => exact .refused (by simp only [Setup.prepare, unpacked]; rfl) drifts
  | unpackBroke unpacked =>
      intro seen verdict last caught
      exact .broke (by simp only [Setup.prepare, unpacked]) (caught.drift_first drifts)

theorem TaskMove.passing_borrowed
    (move : TaskMove setup before delivery queue (.borrowed item) deed next)
    (passing : Task.Passing setup drift start before.world deeds
      ⟨delivery, queue, puller, .borrowed item⟩) :
    Task.Passing setup drift start before.world (deeds ++ deed.toList)
      ⟨delivery, queue, puller, next⟩ := by
  obtain ⟨rfl, drifts, unpacked, empty⟩ := passing
  cases move with
  | decode decoded =>
      rw [empty] at decoded
      exact ⟨rfl, drifts, unpacked, decoded⟩
  | decodeFailed decoded =>
      rw [empty] at decoded
      exact .refused (by simp only [Setup.prepare, unpacked, decoded]; rfl) drifts
  | decodeBroke decoded =>
      rw [empty] at decoded
      intro seen verdict last caught
      exact .broke (by simp only [Setup.prepare, unpacked, decoded]) (caught.drift_first drifts)

theorem TaskMove.passing_decoded
    (move : TaskMove setup before delivery queue (.decoded item) deed next)
    (passing : Task.Passing setup drift start before.world deeds
      ⟨delivery, queue, puller, .decoded item⟩) :
    Task.Passing setup drift start before.world (deeds ++ deed.toList)
      ⟨delivery, queue, puller, next⟩ := by
  obtain ⟨rfl, drifts, unpacked, decoded⟩ := passing
  cases move with
  | check checked =>
      exact ⟨rfl, drifts, by simp only [Setup.prepare, unpacked, decoded, checked]⟩
  | checkFailed checked =>
      exact .refused (by simp only [Setup.prepare, unpacked, decoded, checked]; rfl) drifts
  | checkBroke checked =>
      intro seen verdict last caught
      exact .broke (by simp only [Setup.prepare, unpacked, decoded, checked])
        (caught.drift_first drifts)

theorem TaskMove.passing_checked
    (move : TaskMove setup before delivery queue (.checked item) deed next)
    (passing : Task.Passing setup drift start before.world deeds
      ⟨delivery, queue, puller, .checked item⟩) :
    Task.Passing setup drift start before.world (deeds ++ deed.toList)
      ⟨delivery, queue, puller, next⟩ := by
  obtain ⟨rfl, drifts, prepared⟩ := passing
  cases move with
  | invoke found =>
      rename_i handler
      exact ⟨⟨before.now, handler, ⟨item.envelope.id, queue⟩, item.lease.param⟩, rfl, prepared, rfl,
        .of_drift drifts⟩
  | unhandled missing => exact .unhandled prepared drifts

theorem TaskMove.passing_running {work : Work σ ν} {deadline : Option Deadline}
    (move : TaskMove setup before delivery queue (.running item work deadline) deed next)
    (passing : Task.Passing setup drift start before.world deeds
      ⟨delivery, queue, puller, .running item work deadline⟩) :
    Task.Passing setup drift start
      ((TaskPhase.running item work deadline).worldAfter setup before.world) (deeds ++ deed.toList)
      ⟨delivery, queue, puller, next⟩ := by
  obtain ⟨invocation, rfl, prepared, limited, soFar⟩ := passing
  cases move with
  | work goes =>
      exact ⟨invocation, rfl, prepared, limited, soFar.trans (.of_goes goes item deadline)⟩
  | sleep => exact ⟨_, invocation, rfl, prepared, limited, soFar⟩
  | finish => exact .invoked prepared trivial (soFar _ _ .finish) (.returned (drift.refl _))
  | panic => exact ⟨invocation, before.now, rfl, prepared, soFar _ _ .panic⟩
  | overrunWaiting _ _ =>
      exact .invoked prepared (Invocation.allowed_overrun limited) (soFar _ _ (.overrun rfl))
        (.overran (drift.refl _))

theorem TaskMove.passing_sleeping {wake : Nat} {work : Work σ ν} {deadline : Option Deadline}
    (move : TaskMove setup before delivery queue (.sleeping item wake work deadline) deed next)
    (passing : Task.Passing setup drift start before.world deeds
      ⟨delivery, queue, puller, .sleeping item wake work deadline⟩) :
    Task.Passing setup drift start before.world (deeds ++ deed.toList)
      ⟨delivery, queue, puller, next⟩ := by
  obtain ⟨milliseconds, invocation, rfl, prepared, limited, soFar⟩ := passing
  cases move with
  | wake _ =>
      exact ⟨invocation, rfl, prepared, limited,
        fun answer last performs => soFar answer last (.sleep performs)⟩
  | overrunSleeping _ _ =>
      exact .invoked prepared (Invocation.allowed_overrun limited) (soFar _ _ (.overrun rfl))
        (.overran (drift.refl _))

theorem TaskMove.passing_panicked {cause : Panic}
    (move : TaskMove setup before delivery queue (.handlerPanicked item cause) deed next)
    (passing : Task.Passing setup drift start before.world deeds
      ⟨delivery, queue, puller, .handlerPanicked item cause⟩) :
    Task.Passing setup drift start
      ((TaskPhase.handlerPanicked item cause : TaskPhase σ ν).worldAfter setup before.world)
      (deeds ++ deed.toList) ⟨delivery, queue, puller, next⟩ := by
  obtain ⟨invocation, moment, rfl, prepared, performs⟩ := passing
  cases move with
  | recoverHandler recovered =>
      exact .invoked prepared trivial performs (.panicked (recovers_now recovered))
  | recoverHandlerBroke broke =>
      intro seen verdict last caught
      exact .invoked prepared trivial performs (.unwound (recovers_now broke) caught)

theorem TaskMove.passing_caught {cause : Panic}
    (move : TaskMove setup before delivery queue (.caught cause) deed next)
    (passing : Task.Passing setup drift start before.world deeds
      ⟨delivery, queue, puller, .caught cause⟩) :
    Task.Passing setup drift start
      ((TaskPhase.caught cause : TaskPhase σ ν).worldAfter setup before.world)
      (deeds ++ deed.toList) ⟨delivery, queue, puller, next⟩ := by
  cases move with
  | recover recovered => exact passing _ _ _ (.seen (recovers_now recovered))
  | recoverBroke broke =>
      intro again last recoversAgain
      have passage := passing _ _ _ (.lost (recovers_now broke) recoversAgain)
      simpa using passage

end Moves

theorem TaskMove.passing {task : Task σ ν} {deed : Option (Deed σ ν)} {next : TaskPhase σ ν}
    {deeds : List (Deed σ ν)} {start : World σ} (tidy : before.Tidy)
    (move : TaskMove setup before task.delivery task.queue task.phase deed next)
    (passing : task.Passing setup drift start before.world deeds) :
    Task.Passing setup drift start (task.phase.worldAfter setup before.world)
      (deeds ++ deed.toList) { task with phase := next } := by
  obtain ⟨delivery, queue, puller, phase⟩ := task
  have same (deeds : List (Deed σ ν)) : deeds ++ (none : Option (Deed σ ν)).toList = deeds :=
    List.append_nil deeds
  cases phase with
  | fresh => exact move.passing_fresh passing
  | borrowed _ => exact move.passing_borrowed passing
  | decoded _ => exact move.passing_decoded passing
  | checked _ => exact move.passing_checked passing
  | running _ _ _ => exact move.passing_running passing
  | sleeping _ _ _ _ => exact move.passing_sleeping passing
  | handlerPanicked _ _ => exact move.passing_panicked passing
  | caught _ => exact move.passing_caught passing
  | unpacked _ =>
      cases move
      rw [same]
      exact ⟨passing.1, passing.2.1, passing.2.2, (Pool.Clean.acquire tidy.clean).1⟩
  | judged _ => cases move <;> exact ⟨_, _, _, passing, rfl⟩
  | leaving =>
      cases move
      rw [same]
      exact .inl passing
  | uncaught _ =>
      cases move
      exact .inr (passing _ _ (recovers_now rfl))
  | finished => cases move
  | _ =>
      cases move <;>
      · rw [same]
        exact passing

theorem exists_recovers (setup : Setup σ) (drift : Drift σ) (message : String) (world : World σ) :
    ∃ further last, Recovers setup drift message further world last :=
  ⟨_, _, world, drift.refl _, rfl, drift.refl _⟩

theorem exists_caught (setup : Setup σ) (drift : Drift σ) (cause : Panic) (world : World σ) :
    ∃ (seen : List (Deed σ ν)) (verdict : Option Verdict) (last : World σ),
      Caught setup drift cause world seen verdict last := by
  obtain ⟨further, middle, recovers⟩ := exists_recovers setup drift cause.message world
  cases further with
  | none => exact ⟨_, _, _, .seen recovers⟩
  | some further =>
      obtain ⟨again, last, recoversAgain⟩ := exists_recovers setup drift further.message middle
      exact ⟨_, _, _, .lost recovers recoversAgain⟩

theorem exists_tended (setup : Setup σ) (drift : Drift σ) (answer : Answer) (world : World σ) :
    ∃ (more : List (Deed σ ν)) (verdict : Option Verdict) (last : World σ),
      Tended setup drift world answer more verdict last := by
  cases answer with
  | returned result => exact ⟨_, _, _, .returned (drift.refl world)⟩
  | overran limit => exact ⟨_, _, _, .overran (drift.refl world)⟩
  | panicked cause =>
      obtain ⟨further, middle, recovers⟩ := exists_recovers setup drift cause.message world
      cases further with
      | none => exact ⟨_, _, _, .panicked recovers⟩
      | some further =>
          obtain ⟨seen, verdict, last, caught⟩ := exists_caught setup drift further middle
          exact ⟨_, _, _, .unwound recovers caught⟩

theorem exists_passage (setup : Setup σ) (drift : Drift σ) (delivery : Delivery) (queue : String)
    (start : World σ) :
    ∃ (deeds : List (Deed σ ν)) (verdict : Option Verdict) (last : World σ),
      Passage setup drift delivery queue start deeds verdict last := by
  cases prepared : setup.prepare queue delivery with
  | done made => exact ⟨_, _, _, .unhandled prepared (drift.refl start)⟩
  | failed error => exact ⟨_, _, _, .refused prepared (drift.refl start)⟩
  | panicked cause =>
      obtain ⟨seen, verdict, last, caught⟩ := exists_caught setup drift cause start
      exact ⟨_, _, _, .broke prepared caught⟩

theorem Underway.exists_passage {delivery : Delivery} {queue : String} {start world : World σ}
    {deeds : List (Deed σ ν)} {rest : Work σ ν} {deadline : Option Deadline}
    (cancels : ∀ world : World σ, drift.allows world world.cancel)
    (underway : Underway setup drift delivery queue start deeds rest deadline world) :
    ∃ more verdict last, Passage setup drift delivery queue start (deeds ++ more) verdict last := by
  obtain ⟨invocation, rfl, prepared, _, soFar⟩ := underway
  obtain ⟨answer, middle, inTime, performs⟩ := Work.exists_performs cancels rest world
  obtain ⟨more, verdict, last, tended⟩ := exists_tended setup drift answer middle
  have allowed : answer.Allowed setup.config := by
    cases answer with
    | overran limit => exact absurd rfl (inTime limit)
    | _ => trivial
  exact ⟨.answered 0 answer :: more, verdict, last,
    .invoked prepared allowed (soFar answer middle performs) tended⟩

theorem Task.Passing.ends {start world : World σ} {deeds : List (Deed σ ν)} {task : Task σ ν}
    (cancels : ∀ world : World σ, drift.allows world world.cancel)
    (passing : task.Passing setup drift start world deeds) :
    Ended setup drift task.delivery task.queue start deeds world ∨
      ∃ more verdict last,
        Passage setup drift task.delivery task.queue start (deeds ++ more) verdict last ∧
          (task.phase.isFinished = true → more = [] ∧ verdict = none ∧ last = world) := by
  obtain ⟨delivery, queue, puller, phase⟩ := task
  simp only [Passing] at passing
  have early (noDeeds : deeds = []) : ∃ more verdict last,
      Passage setup drift delivery queue start (deeds ++ more) verdict last := by
    subst deeds
    exact exists_passage setup drift delivery queue start
  have whole {verdict : Verdict}
      (passage : Passage setup drift delivery queue start deeds (some verdict) world) :
      ∃ more verdict last,
        Passage setup drift delivery queue start (deeds ++ more) verdict last :=
    ⟨[], some verdict, world, by rwa [List.append_nil]⟩
  have unfinished (begun : ∃ more verdict last,
        Passage setup drift delivery queue start (deeds ++ more) verdict last)
      (unfinished : phase.isFinished = false) : ∃ more verdict last,
        Passage setup drift delivery queue start (deeds ++ more) verdict last ∧
          (phase.isFinished = true → more = [] ∧ verdict = none ∧ last = world) := by
    obtain ⟨more, verdict, last, passage⟩ := begun
    exact ⟨more, verdict, last, passage, by simp [unfinished]⟩
  cases phase with
  | fresh | unpacked _ | borrowed _ | decoded _ | checked _ =>
      exact .inr (unfinished (early passing.1) rfl)
  | running _ _ _ => exact .inr (unfinished (passing.exists_passage cancels) rfl)
  | sleeping _ _ _ _ =>
      obtain ⟨milliseconds, asleep⟩ := passing
      exact .inr (unfinished (asleep.exists_passage cancels) rfl)
  | handlerPanicked _ cause =>
      obtain ⟨invocation, moment, rfl, prepared, performs⟩ := passing
      obtain ⟨more, verdict, last, tended⟩ := exists_tended setup drift (.panicked cause) world
      exact .inr (unfinished ⟨more, verdict, last, .invoked prepared trivial performs tended⟩ rfl)
  | handlerRecovered _ _ | dropping _ | recovered | ended _ _ | judged _ =>
      exact .inr (unfinished (whole passing) rfl)
  | unwinding _ cause | caught cause =>
      obtain ⟨seen, verdict, last, caught⟩ := exists_caught setup drift cause world
      exact .inr (unfinished ⟨seen, verdict, last, passing seen verdict last caught⟩ rfl)
  | escaped cause | uncaught cause =>
      obtain ⟨further, last, recovers⟩ := exists_recovers setup drift cause.message world
      exact .inr (unfinished ⟨_, none, last, passing further last recovers⟩ rfl)
  | settled _ | refused _ | leaving => exact .inl passing
  | finished =>
      refine passing.imp_right fun lost => ⟨[], none, world, ?_, fun _ => ⟨rfl, rfl, rfl⟩⟩
      rwa [List.append_nil]

/-- Every task of a run has such a passage, among others that may do anything. -/
theorem Exposed.passing (noTasks : first.tasks = []) (noObjects : first.pool.free = [])
    (exposed : Exposed setup first course system) {index : Nat} {task : Task σ ν}
    (found : system.tasks[index]? = some task) :
    ∃ start world, task.Passing setup .free start world (course.deeds setup index) := by
  have tracked := exposed.forall_tasks
    (fun index turns task => ∃ start world,
      task.Passing setup .free start world (turns.filterMap (·.deed? setup index))) noTasks
    (fun _ _ _ _ => ⟨first.world, first.world, rfl, trivial⟩) ?_
  · rw [Course.deeds_eq_turns]
    exact tracked.known index task found
  · intro earlier before after doer mover next turns reached _ _ move known
    obtain ⟨start, world, passing⟩ := known
    have here : mover.Passing setup .free start before.world _ := passing.drift_last trivial
    have moved := move.passing (reached.tidy noTasks noObjects) here
    refine ⟨start, mover.phase.worldAfter setup before.world, ?_⟩
    cases done : before.deed? setup doer <;> simpa only [done, List.filterMap_append,
      List.filterMap_cons, List.filterMap_nil, Option.toList_none, Option.toList_some] using moved

end TaskQueue.Consumer
