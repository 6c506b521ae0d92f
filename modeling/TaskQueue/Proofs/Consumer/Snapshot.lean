import TaskQueue.Proofs.Consumer.Exposed
import TaskQueue.Proofs.Consumer.Ledger

/-!
What the counts say that are loaded one after another. At any one moment no more outcomes have been
counted than deliveries. Between two loads others count on, and as the deliveries are loaded first,
a delivery that comes and goes in between shows up among the outcomes alone.
-/

namespace TaskQueue.Consumer

variable {σ ν : Type} {setup : Setup σ} {first system before after : State σ ν}
  {course : Course σ ν} {event : Event σ ν}

def State.receives (system : State σ ν) : Event σ ν → Bool
  | .loop index _ => system.loops[index]?.any fun loop => loop.phase.counter? == some .received
  | _ => false

namespace Course

def receipts (course : Course σ ν) : Nat := course.countP fun moment => moment.1.receives moment.2

/-- The system in which a step of somebody who asks for the counts loads one. -/
def loading? (place : Nat) : State σ ν × Event σ ν → Option (State σ ν)
  | (system, .load asker) => if asker = place then some system else none
  | _ => none

def loadings (course : Course σ ν) (place : Nat) : List (State σ ν) :=
  course.filterMap (loading? place)

theorem loading?_eq_some {place : Nat} {moment : State σ ν × Event σ ν} :
    loading? place moment = some system ↔ moment = (system, .load place) := by
  obtain ⟨earlier, event⟩ := moment
  cases event with
  | load asker =>
      simp only [loading?, Option.ite_none_right_eq_some, Option.some.injEq, Prod.mk.injEq,
        Event.load.injEq]
      exact and_comm
  | _ => simp [loading?]

theorem loadings_load {place : Nat} :
    (course ++ [(system, Event.load place)]).loadings place =
      course.loadings place ++ [system] := by
  rw [loadings, filterMap_concat, loading?_eq_some.mpr rfl]
  rfl

theorem loadings_else {place : Nat} (other : event ≠ .load place) :
    (course ++ [(system, event)]).loadings place = course.loadings place := by
  have nothing : loading? place (system, event) = none := by
    rw [Option.eq_none_iff_forall_ne_some]
    intro loaded picked
    exact other (Prod.mk.inj (loading?_eq_some.mp picked)).2
  rw [loadings, filterMap_concat, nothing, Option.toList_none, List.append_nil]
  rfl

theorem mem_of_loading {place : Nat} (loading : system ∈ course.loadings place) :
    (system, Event.load place) ∈ course := by
  obtain ⟨moment, taken, picked⟩ := List.mem_filterMap.mp loading
  rwa [loading?_eq_some.mp picked] at taken

theorem split_at_loading {place turn : Nat}
    (found : (course.loadings place)[turn]? = some system) :
    ∃ earlier later : Course σ ν, course = earlier ++ (system, .load place) :: later ∧
      earlier.loadings place = (course.loadings place).take turn := by
  obtain ⟨bound, same⟩ := List.getElem?_eq_some_iff.mp found
  have whole := List.take_append_drop turn (course.loadings place)
  rw [← List.getElem_cons_drop bound, same] at whole
  obtain ⟨front, rest, parts, early, late⟩ := List.filterMap_eq_append_iff.mp whole.symm
  obtain ⟨skipped, moment, later, rfl, silent, picked, _⟩ := List.filterMap_eq_cons_iff.mp late
  rw [loading?_eq_some.mp picked, ← List.append_assoc] at parts
  refine ⟨front ++ skipped, later, parts, ?_⟩
  rw [loadings, List.filterMap_append, early, List.filterMap_eq_nil_iff.mpr silent,
    List.append_nil]

end Course

namespace State

theorem step_counts_le (stepped : before.step setup event = some after) (counter : Counter) :
    before.counts.get counter ≤ after.counts.get counter := by
  cases step_stepped stepped with
  | task _ _ _ _ _ effect =>
      rw [effect.counts, Counts.get_counted]
      exact Nat.le_add_right _ _
  | loop _ _ _ _ _ _ effect =>
      rw [effect.counts, Counts.get_counted]
      exact Nat.le_add_right _ _
  | outside _ _ _ effect => exact Nat.le_of_eq (congrArg (·.get counter) effect.counts.symm)

theorem step_receives (stepped : before.step setup event = some after) :
    after.counts.received = before.counts.received + (before.receives event).toNat := by
  cases step_stepped stepped with
  | task found ran move moved frame effect =>
      rename_i doer task next
      have counted := Counts.count_counted before.counts task.phase.counter? .received
      rw [← effect.counts, TaskPhase.count_received] at counted
      exact counted
  | loop found pull move moved born frame effect =>
      rename_i puller heed loop pulled next
      have counted := effect.get_counts (show Counter.received ≠ .streamFailures by decide)
      have receives : before.receives (.loop puller heed : Event σ ν) =
          (loop.phase.counter? == some .received) := by
        simp [State.receives, found]
      rw [receives]
      refine counted.trans (congrArg (before.counts.received + ·) ?_)
      cases loop.phase <;> rfl
  | outside _ notLoop _ effect =>
      have silent : before.receives event = false := by
        cases event with
        | loop index heed => exact absurd rfl (notLoop index heed)
        | _ => rfl
      rw [effect.counts, silent]
      rfl

end State

theorem Exposed.counts_le (exposed : Exposed setup first course system) (counter : Counter) :
    first.counts.get counter ≤ system.counts.get counter := by
  induction exposed with
  | start => exact Nat.le_refl _
  | step _ stepped ih => exact Nat.le_trans ih (State.step_counts_le stepped counter)
  | elsewhere broker now _ ih => exact ih

theorem Exposed.receipts (exposed : Exposed setup first course system) :
    system.counts.received = first.counts.received + course.receipts := by
  induction exposed with
  | start => rfl
  | step exposed stepped ih =>
      rename_i course before after event
      rw [State.step_receives stepped, ih, Course.receipts, Course.receipts, List.countP_append,
        List.countP_singleton, Nat.add_assoc]
      cases before.receives event <;> rfl
  | elsewhere broker now _ ih => exact ih

theorem Exposed.counts_le_of_mem (exposed : Exposed setup first course system)
    {moment : State σ ν × Event σ ν} (taken : moment ∈ course) (counter : Counter) :
    moment.1.counts.get counter ≤ system.counts.get counter := by
  obtain ⟨earlier, later, rfl⟩ := List.append_of_mem taken
  obtain ⟨_, after, stepped, rest⟩ := exposed.split
  exact Nat.le_trans (State.step_counts_le stepped counter) (rest.counts_le counter)

theorem TaskMove.owes_le {task : Task σ ν} {deed : Option (Deed σ ν)} {next : TaskPhase σ ν}
    (move : TaskMove setup system task.delivery task.queue task.phase deed next) :
    (task.phase.counter?.any Counter.isOutcome).toNat +
      (Task.owes { task with phase := next }).toNat ≤ task.owes.toNat := by
  obtain ⟨delivery, queue, puller, phase⟩ := task
  cases move with
  | countSettled =>
      rename_i verdict
      cases verdict <;> exact Nat.le_refl _
  | recoverEscaped => exact Nat.zero_le _
  | _ => exact Nat.le_refl _

theorem Exposed.settled_le (noTasks : first.tasks = []) (noLoops : first.loops = [])
    (zero : first.counts = Counts.zero) (exposed : Exposed setup first course system) :
    system.counts.settled + system.owed ≤ system.counts.received := by
  induction exposed with
  | start =>
      rw [State.owed, noTasks, noLoops, zero]
      exact Nat.le_refl _
  | step exposed stepped ih =>
      rename_i course before after event
      cases State.step_stepped stepped with
      | task found ran move moved frame effect =>
          rename_i doer mover next
          have owes := move.owes_le
          have owed := owed_task found moved frame
          have received := Counts.count_counted before.counts mover.phase.counter? .received
          rw [← effect.counts, TaskPhase.count_received] at received
          simp only [Counts.get] at received
          rw [effect.counts, Counts.settled_counted, ← effect.counts]
          omega
      | loop found pull move moved born frame effect =>
          rename_i puller heed loop pulled next
          have owes := move.owed puller
          have owed := owed_loop found moved born
          have received := effect.get_counts (show Counter.received ≠ .streamFailures by decide)
          simp only [Counts.get] at received
          rw [effect.settled]
          omega
      | outside _ _ frame effect =>
          rw [effect.counts, State.owed, frame.flatMap_loops LoopPhase.owed rfl, frame.tasks]
          exact ih
  | elsewhere broker now _ ih => exact ih

theorem State.step_inquiries (stepped : before.step setup event = some after)
    (unasked : event ≠ .inquire) (unloaded : ∀ place, event ≠ .load place) :
    after.inquiries = before.inquiries := by
  cases State.step_moved stepped with
  | task _ _ _ frame => exact frame.inquiries
  | loop _ _ _ _ _ frame => exact frame.inquiries
  | outside _ _ frame => exact frame.inquiries unasked unloaded

/-- Somebody who asks has loaded the counts in their order, each as it stood at its load. -/
structure Loaded (course : Course σ ν) (place : Nat) (loads : List Nat) : Prop where
  length : loads.length = (course.loadings place).length
  each : ∀ (turn : Nat) (loaded : State σ ν), (course.loadings place)[turn]? = some loaded →
    ∃ counter, Counter.all[turn]? = some counter ∧
      loads[turn]? = some (loaded.counts.get counter)

structure Inquired (course : Course σ ν) (system : State σ ν) : Prop where
  known : ∀ place loads, system.inquiries[place]? = some loads → Loaded course place loads
  unknown : ∀ place, system.inquiries.length ≤ place → course.loadings place = []

theorem Inquired.other (inquired : Inquired course before) (unloaded : ∀ place, event ≠ .load place)
    (same : after.inquiries = before.inquiries) :
    Inquired (course ++ [(before, event)]) after := by
  constructor
  · intro place loads found
    obtain ⟨length, each⟩ := inquired.known place loads (same ▸ found)
    constructor <;> rwa [Course.loadings_else (unloaded place)]
  · intro place beyond
    rw [Course.loadings_else (unloaded place)]
    exact inquired.unknown place (same ▸ beyond)

theorem Inquired.inquire (inquired : Inquired course before) :
    Inquired (course ++ [(before, .inquire)]) before.inquire := by
  constructor
  · intro place loads found
    have unmoved : (course ++ [(before, Event.inquire)]).loadings place = course.loadings place :=
      Course.loadings_else nofun
    rcases getElem?_concat_cases found with old | ⟨rfl, rfl⟩
    · obtain ⟨length, each⟩ := inquired.known place loads old
      constructor <;> rwa [unmoved]
    · have nothing := inquired.unknown _ (Nat.le_refl _)
      constructor <;> simp [unmoved, nothing]
  · intro place beyond
    have unmoved : (course ++ [(before, Event.inquire)]).loadings place = course.loadings place :=
      Course.loadings_else nofun
    rw [State.inquire, List.length_append] at beyond
    exact unmoved.trans (inquired.unknown place (by omega))

theorem Loaded.load {place : Nat} {loads : List Nat} {counter : Counter}
    (loaded : Loaded course place loads) (turn : Counter.all[loads.length]? = some counter) :
    Loaded (course ++ [(system, .load place)]) place (loads ++ [system.counts.get counter]) := by
  constructor
  · rw [Course.loadings_load, List.length_append, List.length_append, loaded.length]
    rfl
  · intro index last found
    rw [Course.loadings_load] at found
    rcases getElem?_concat_cases found with old | ⟨rfl, rfl⟩
    · obtain ⟨earlier, order, shown⟩ := loaded.each index last old
      exact ⟨earlier, order, getElem?_concat _ shown⟩
    · rw [← loaded.length]
      exact ⟨counter, turn, List.getElem?_concat_length⟩

theorem Inquired.load {place : Nat} (inquired : Inquired course before)
    (stepped : before.load place = some after) :
    Inquired (course ++ [(before, .load place)]) after := by
  unfold State.load at stepped
  split at stepped
  · simp at stepped
  · rename_i loads asked
    split at stepped
    · simp at stepped
    · rename_i counter turn
      simp only [Option.some.injEq] at stepped
      subst after
      have bound := (List.getElem?_eq_some_iff.mp asked).1
      constructor
      · intro other held found
        simp only [List.getElem?_set] at found
        by_cases same : place = other
        · subst other
          simp only [bound, if_true, Option.some.injEq] at found
          subst held
          exact (inquired.known place loads asked).load turn
        · have unmoved : (course ++ [(before, Event.load place)]).loadings other =
              course.loadings other := Course.loadings_else fun equal => same (Event.load.inj equal)
          rw [if_neg same] at found
          obtain ⟨length, each⟩ := inquired.known other held found
          constructor <;> rwa [unmoved]
      · intro other beyond
        rw [List.length_set] at beyond
        have notSame : place ≠ other := by omega
        rw [Course.loadings_else fun equal => notSame (Event.load.inj equal)]
        exact inquired.unknown other beyond

theorem Exposed.inquired (unasked : first.inquiries = [])
    (exposed : Exposed setup first course system) : Inquired course system := by
  induction exposed with
  | start =>
      refine ⟨?_, fun _ _ => rfl⟩
      intro place loads found
      simp [unasked] at found
  | step exposed stepped ih =>
      rename_i course before after event
      cases event with
      | load place => exact ih.load stepped
      | inquire =>
          obtain rfl := Option.some.inj stepped
          exact ih.inquire
      | _ => exact ih.other (fun _ => nofun) (State.step_inquiries stepped nofun fun _ => nofun)
  | elsewhere broker now _ ih => exact ⟨ih.known, ih.unknown⟩

/-- The systems in which the counts were loaded that somebody is told, and what happened between the
load of the deliveries and the last load of an outcome. -/
structure Snapped (course : Course σ ν) (place : Nat) (stats : ConsumerStats)
    (loaded : Counter → State σ ν) (between : Course σ ν) : Prop where
  loads : ∀ counter, (course.loadings place)[Counter.all.idxOf counter]? = some (loaded counter)
  shown : stats = ConsumerStats.ofLoads fun counter => (loaded counter).counts.get counter
  parts : ∃ earlier later, course = earlier ++ (loaded .received, .load place) ::
    between ++ (loaded .terminateFailures, .load place) :: later
  among : (loaded .acked, .load place) ∈ between ∧ (loaded .rejected, .load place) ∈ between

theorem Counter.all_idxOf (counter : Counter) :
    Counter.all[Counter.all.idxOf counter]? = some counter := by
  cases counter <;> rfl

theorem Inquired.snapped {place : Nat} {stats : ConsumerStats} (inquired : Inquired course system)
    (answered : system.stats? place = some stats) :
    ∃ loaded between, Snapped course place stats loaded between := by
  unfold State.stats? at answered
  split at answered
  · simp at answered
  · rename_i loads asked
    obtain ⟨length, each⟩ := inquired.known place loads asked
    simp only [Option.ite_none_right_eq_some, Option.some.injEq] at answered
    obtain ⟨complete, rfl⟩ := answered
    have found (counter : Counter) : ∃ loaded,
        (course.loadings place)[Counter.all.idxOf counter]? = some loaded := by
      have bound : Counter.all.idxOf counter < Counter.all.length := by cases counter <;> decide
      exact ⟨_, List.getElem?_eq_getElem (length ▸ complete ▸ bound)⟩
    obtain ⟨loaded, found⟩ := Classical.axiomOfChoice found
    obtain ⟨front, later, whole, early⟩ := Course.split_at_loading (found .terminateFailures)
    have front_loads (counter : Counter) (soon : Counter.all.idxOf counter < 4) :
        (front.loadings place)[Counter.all.idxOf counter]? = some (loaded counter) := by
      rw [early, List.getElem?_take]
      exact (if_pos soon).trans (found counter)
    obtain ⟨earlier, between, parts, none⟩ :=
      Course.split_at_loading (front_loads .received (by decide))
    have inner : front.loadings place = loaded .received :: between.loadings place := by
      rw [parts, Course.loadings, List.filterMap_append, List.filterMap_cons,
        Course.loading?_eq_some.mpr rfl]
      exact congrArg (· ++ loaded .received :: between.loadings place) none
    rw [inner] at front_loads
    refine ⟨loaded, between, found, ?shown, ⟨earlier, later, ?parts⟩, ?early, ?late⟩
    case shown =>
      congr 1
      funext counter
      obtain ⟨known, order, value⟩ := each _ _ (found counter)
      obtain rfl := Option.some.inj ((Counter.all_idxOf counter).symm.trans order)
      rw [List.getD_eq_getElem?_getD, value, Option.getD_some]
    case parts => rw [whole, parts]
    case early =>
      exact Course.mem_of_loading (List.mem_of_getElem? (front_loads .acked (by decide)))
    case late =>
      exact Course.mem_of_loading (List.mem_of_getElem? (front_loads .rejected (by decide)))

section Behind

variable {registry : Registry (Handler σ ν)} {broker : Broker} {shared : σ} {place : Nat}
  {stats : ConsumerStats} {loaded : Counter → State σ ν} {between : Course σ ν}

/-- The loaded outcomes exceed the loaded deliveries by no more deliveries than were received in
between: by the last of these loads the law for a single moment holds of all that was received. -/
theorem Snapped.behind (snapped : Snapped course place stats loaded between)
    (exposed : Exposed setup (State.start setup registry broker shared) course system) :
    (loaded .acked).counts.acked + (loaded .rejected).counts.rejected +
        (loaded .terminateFailures).counts.terminateFailures ≤
      (loaded .received).counts.received + between.receipts := by
  obtain ⟨earlier, later, whole⟩ := snapped.parts
  obtain ⟨acked, rejected⟩ := snapped.among
  subst course
  obtain ⟨untilLast, _⟩ := exposed.split
  obtain ⟨_, next, stepped, meanwhile⟩ := untilLast.split
  have settled := untilLast.settled_le rfl rfl rfl
  have ackedBy := meanwhile.counts_le_of_mem acked .acked
  have rejectedBy := meanwhile.counts_le_of_mem rejected .rejected
  have receivedBy := meanwhile.receipts
  rw [State.step_receives stepped] at receivedBy
  simp only [Counts.settled, Counts.get, State.receives, Bool.toNat_false]
    at settled ackedBy rejectedBy receivedBy
  omega

theorem Snapped.shown_behind (snapped : Snapped course place stats loaded between)
    (exposed : Exposed setup (State.start setup registry broker shared) course system)
    (few : system.counts.received < UInt64.size) :
    stats.acked.toNat + stats.rejected.toNat + stats.terminateFailures.toNat ≤
      stats.received.toNat + between.receipts := by
  have behind := snapped.behind exposed
  obtain ⟨earlier, later, whole⟩ := snapped.parts
  have taken : (loaded .received, .load place) ∈ course := by simp [whole]
  have fits := Nat.lt_of_le_of_lt (exposed.counts_le_of_mem taken .received) few
  have received : (loaded .received).counts.received.toUInt64.toNat =
      (loaded .received).counts.received := UInt64.toNat_ofNat_of_lt' fits
  have below (number : Nat) : number.toUInt64.toNat ≤ number := by
    rw [Nat.toUInt64_eq, UInt64.toNat_ofNat']
    exact Nat.mod_le _ _
  rw [snapped.shown]
  simp only [ConsumerStats.ofLoads, Counts.get, received]
  have acked := below (loaded .acked).counts.acked
  have rejected := below (loaded .rejected).counts.rejected
  have refused := below (loaded .terminateFailures).counts.terminateFailures
  omega

end Behind

/-- At no moment have more outcomes been counted than deliveries, and no snapshot is ahead of the
deliveries by more than came in while it was taken. What somebody is told who asks for the counts is
what each count was when it was loaded; the outcomes among it exceed the deliveries by no more
deliveries than were received after those were loaded and before the last outcome was. -/
theorem Exposed.snapshot_behind {registry : Registry (Handler σ ν)} {broker : Broker} {shared : σ}
    (exposed : Exposed setup (State.start setup registry broker shared) course system) :
    system.counts.acked + system.counts.rejected + system.counts.terminateFailures ≤
        system.counts.received ∧
      ∀ (place : Nat) (stats : ConsumerStats), system.stats? place = some stats →
        ∃ loaded between, Snapped course place stats loaded between ∧
          (loaded .acked).counts.acked + (loaded .rejected).counts.rejected +
              (loaded .terminateFailures).counts.terminateFailures ≤
            (loaded .received).counts.received + between.receipts ∧
          (system.counts.received < UInt64.size →
            stats.acked.toNat + stats.rejected.toNat + stats.terminateFailures.toNat ≤
              stats.received.toNat + between.receipts) := by
  constructor
  · exact Nat.le_trans (Nat.le_add_right _ _) (exposed.settled_le rfl rfl rfl)
  · intro place stats answered
    obtain ⟨loaded, between, snapped⟩ := (exposed.inquired rfl).snapped answered
    exact ⟨loaded, between, snapped, snapped.behind exposed, snapped.shown_behind exposed⟩

def overtakenEvents : List (Event Unit Unit) := List.flatten [
  [.register "ok" fun _ _ => .succeed,
    .publish "q" (some "id") (Bytes.ofText "\x7b\"task_name\":\"ok\"\x7d"), .subscribe "q",
    .caller 0, .inquire, .load 0],
  List.replicate 6 (.loop 0 true), List.replicate 10 (.task 0), List.replicate 5 (.load 0)]

theorem snapshot_behind_overtaken :
    ∃ (course between : Course Unit Unit) (system : State Unit Unit) (stats : ConsumerStats),
      Exposed plainSetup (State.start plainSetup Registry.empty Broker.empty ()) course system ∧
        system.stats? 0 = some stats ∧ stats.acked = 1 ∧ 1 ≤ between.receipts ∧
        stats.acked.toNat + stats.rejected.toNat + stats.terminateFailures.toNat ≤
          stats.received.toNat + between.receipts := by
  have seen : ((State.start plainSetup Registry.empty Broker.empty ()).follow plainSetup
      overtakenEvents).any (fun led => decide (led.2.stats? 0 = some ⟨0, 1, 0, 0, 0, 0⟩) &&
        decide (led.2.counts.received = 1)) = true := by
    decide +kernel
  obtain ⟨⟨course, system⟩, followed, checked⟩ := (Option.any_eq_true _ _).mp seen
  simp only [Bool.and_eq_true, decide_eq_true_eq] at checked
  obtain ⟨answered, received⟩ := checked
  have run := Run.start.follow followed
  have few : system.counts.received < UInt64.size := by
    rw [received]
    decide
  obtain ⟨_, between, _, _, behind⟩ := (Exposed.snapshot_behind run.exposed).2 0 _ answered
  have ahead : 1 + 0 + 0 ≤ 0 + between.receipts := behind few
  exact ⟨_, between, _, _, run.exposed, answered, rfl, by omega, behind few⟩

/-- A snapshot that tells of an outcome and of no delivery. -/
theorem exists_snapshot_ahead :
    ∃ (course : Course Unit Unit) (system : State Unit Unit) (stats : ConsumerStats),
      Run plainSetup (State.start plainSetup Registry.empty Broker.empty ()) course system ∧
        system.stats? 0 = some stats ∧
        ¬stats.acked.toNat + stats.rejected.toNat + stats.terminateFailures.toNat ≤
          stats.received.toNat := by
  have seen : ((State.start plainSetup Registry.empty Broker.empty ()).follow plainSetup
      overtakenEvents).any (fun led => decide (led.2.stats? 0 = some ⟨0, 1, 0, 0, 0, 0⟩)) =
        true := by
    decide +kernel
  obtain ⟨⟨course, system⟩, followed, answered⟩ := (Option.any_eq_true _ _).mp seen
  exact ⟨_, _, _, Run.start.follow followed, of_decide_eq_true answered, by decide⟩

end TaskQueue.Consumer
