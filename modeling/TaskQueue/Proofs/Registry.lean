import Mathlib.Logic.Relation
import TaskQueue.Proofs.Dictionary
import TaskQueue.Proofs.Lists
import TaskQueue.Registry.Session
import TaskQueue.Registry.Traffic

/-!
The last registration of a name counts, whoever registers, removes, asks and runs tasks meanwhile.
What is put down of a registry tells which handler is in force under a name, and every answer is
what it tells; a task that is run calls the handler that was in force when it was looked up, and
comes to what the work of this handler comes to.
-/

namespace TaskQueue

variable {σ ν : Type}

namespace Work

/-- What is left of work after steps at these sights, and the notes it left on the way. -/
def replay : Work σ ν → List (Sight σ) → Option (Work σ ν × List ν)
  | work, [] => some (work, [])
  | work, sight :: later =>
      (work.advance sight).bind fun stride =>
        (replay stride.rest later).map fun left => (left.1, stride.notes ++ left.2)

theorem replay_concat {work rest : Work σ ν} {sights : List (Sight σ)} {notes : List ν}
    {sight : Sight σ} {stride : Stride σ ν} (replayed : work.replay sights = some (rest, notes))
    (advanced : rest.advance sight = some stride) :
    work.replay (sights ++ [sight]) = some (stride.rest, notes ++ stride.notes) := by
  induction sights generalizing work notes with
  | nil =>
      obtain ⟨rfl, rfl⟩ := Prod.mk.inj (Option.some.inj replayed)
      simp [replay, advanced]
  | cons first later ih =>
      simp only [replay, Option.bind_eq_some_iff, Option.map_eq_some_iff] at replayed
      obtain ⟨begun, stepped, left, others, same⟩ := replayed
      obtain ⟨rfl, rfl⟩ := Prod.mk.inj same
      simp [replay, stepped, ih others, List.append_assoc]

theorem advance_eq_none {work : Work σ ν} {sight : Sight σ} (still : work.advance sight = none) :
    (∃ outcome, work.outcome? = some outcome) ∨
      ∃ next, work = .awaitCancel next ∧ sight.cancelled = false := by
  cases work with
  | finish result => cases result <;> exact .inl ⟨_, rfl⟩
  | panic cause => exact .inl ⟨_, rfl⟩
  | awaitCancel next => exact .inr ⟨next, rfl, by simpa [advance] using still⟩
  | _ => simp [advance] at still

theorem outcome_of_advance {work : Work σ ν} {sight : Sight σ} {stride : Stride σ ν}
    (advanced : work.advance sight = some stride) : work.outcome? = none := by
  cases work with
  | finish result | panic cause => simp [advance] at advanced
  | _ => rfl

theorem run_of_outcome {work : Work σ ν} {outcome : Outcome Unit}
    (ended : work.outcome? = some outcome) (cancelled : Bool) (shared : σ) :
    work.run cancelled shared = ⟨some outcome, cancelled, shared, []⟩ := by
  cases work with
  | finish result => cases result <;> obtain rfl := Option.some.inj ended <;> rfl
  | panic cause => obtain rfl := Option.some.inj ended; rfl
  | _ => simp [outcome?] at ended

theorem run_of_advance {work : Work σ ν} {sight : Sight σ} {stride : Stride σ ν}
    (advanced : work.advance sight = some stride) :
    work.run sight.cancelled sight.shared =
      let ran := stride.rest.run stride.sight.cancelled stride.sight.shared
      { ran with notes := stride.notes ++ ran.notes } := by
  cases work with
  | finish result | panic cause => simp [advance] at advanced
  | awaitCancel next =>
      simp only [advance, Option.ite_none_right_eq_some, Option.some.injEq] at advanced
      obtain ⟨cancelled, rfl⟩ := advanced
      simp [run, cancelled]
  | _ =>
      obtain rfl := Option.some.inj advanced
      rfl

theorem induction_on_steps {motive : Work σ ν → Prop} (work : Work σ ν)
    (step : ∀ work, (∀ sight stride, work.advance sight = some stride → motive stride.rest) →
      motive work) : motive work := by
  induction work with
  | finish result | panic cause =>
      exact step _ fun _ _ advanced => by simp [advance] at advanced
  | awaitCancel next ih =>
      refine step _ fun _ _ advanced => ?_
      simp only [advance, Option.ite_none_right_eq_some, Option.some.injEq] at advanced
      obtain ⟨_, rfl⟩ := advanced
      exact ih
  | look next ih | access change next ih =>
      exact step _ fun _ _ advanced => by obtain rfl := Option.some.inj advanced; exact ih _
  | sleep milliseconds next ih | cancel next ih | note left next ih =>
      exact step _ fun _ _ advanced => by obtain rfl := Option.some.inj advanced; exact ih

end Work

namespace Registry

section Map

variable {α : Type} (registry : Registry α) (name other : String) (handler : α)

@[simp] theorem lookup_register : (registry.register name handler).2.lookup other =
    if name = other then some handler else registry.lookup other :=
  Dictionary.get?_insert registry.handlers name handler other

@[simp] theorem lookup_unregister : (registry.unregister name).2.lookup other =
    if name = other then none else registry.lookup other :=
  Dictionary.get?_erase registry.handlers name other

variable {registry name}

theorem unregister_iff :
    (registry.unregister name).1 = true ↔ ∃ handler, registry.lookup name = some handler :=
  Option.isSome_iff_exists

theorem contains_iff :
    registry.contains name = true ↔ ∃ handler, registry.lookup name = some handler :=
  Option.isSome_iff_exists

theorem mem_names_iff :
    name ∈ registry.names ↔ ∃ handler, registry.lookup name = some handler :=
  Dictionary.mem_keys_iff

theorem size_eq : registry.size = registry.names.length := (List.length_map _).symm

end Map

section History

variable {history before : List (Entry σ ν)} {entry : Entry σ ν} {name : String}
  {handler : Handler σ ν} {found : Option (Handler σ ν)} {index : Nat}

def Entry.Changes (name : String) : Entry σ ν → Prop
  | .registered other _ _ | .unregistered other _ => other = name
  | _ => False

/-- The handler was registered under the name, and nothing was registered or removed under it
since. -/
def InForce (history : List (Entry σ ν)) (name : String) (handler : Handler σ ν) : Prop :=
  ∃ before displaced after, history = before ++ .registered name handler displaced :: after ∧
    ∀ entry ∈ after, ¬entry.Changes name

def Tells (history : List (Entry σ ν)) (name : String) (found : Option (Handler σ ν)) : Prop :=
  ∀ handler, found = some handler ↔ InForce history name handler

def Lists (history : List (Entry σ ν)) (names : List String) : Prop :=
  names.Pairwise (· < ·) ∧ ∀ name, name ∈ names ↔ ∃ handler, InForce history name handler

theorem inForce_concat : InForce (history ++ [entry]) name handler ↔
    (∃ displaced, entry = .registered name handler displaced) ∨
      InForce history name handler ∧ ¬entry.Changes name := by
  constructor
  · rintro ⟨before, displaced, after, whole, still⟩
    rcases concat_split whole with ⟨rfl, rfl, rfl⟩ | ⟨others, rfl, rfl⟩
    · exact .inl ⟨displaced, rfl⟩
    · refine .inr ⟨⟨before, displaced, others, rfl, ?_⟩, still entry (by simp)⟩
      exact fun other inside => still other (by simp [inside])
  · rintro (⟨displaced, rfl⟩ | ⟨⟨before, displaced, after, rfl, still⟩, unchanged⟩)
    · exact ⟨history, displaced, [], rfl, nofun⟩
    · refine ⟨before, displaced, after ++ [entry], by simp, ?_⟩
      intro other inside
      rcases List.mem_append.mp inside with earlier | last
      · exact still other earlier
      · obtain rfl := List.mem_singleton.mp last
        exact unchanged

theorem Tells.unchanged (tells : Tells history name found) (unchanged : ¬entry.Changes name) :
    Tells (history ++ [entry]) name found := by
  intro handler
  rw [tells handler, inForce_concat]
  constructor
  · exact fun inForce => .inr ⟨inForce, unchanged⟩
  · rintro (⟨displaced, rfl⟩ | ⟨inForce, _⟩)
    · exact absurd rfl unchanged
    · exact inForce

theorem tells_registered (displaced : Option (Handler σ ν)) :
    Tells (history ++ [.registered name handler displaced]) name (some handler) := by
  intro other
  rw [inForce_concat]
  constructor
  · rintro ⟨⟩
    exact .inl ⟨displaced, rfl⟩
  · rintro (⟨_, same⟩ | ⟨_, unchanged⟩)
    · obtain ⟨_, rfl, _⟩ := Entry.registered.inj same
      rfl
    · exact absurd rfl unchanged

theorem tells_unregistered (removed : Bool) :
    Tells (history ++ [.unregistered name removed]) name none := by
  intro other
  rw [inForce_concat]
  constructor
  · exact nofun
  · rintro (⟨_, ⟨⟩⟩ | ⟨_, unchanged⟩)
    exact absurd rfl unchanged

def Entry.deedOf (index : Nat) : Entry σ ν → Option (Deed σ ν)
  | .dispatch place deed => if place = index then some deed else none
  | _ => none

def deedsOf (index : Nat) (history : List (Entry σ ν)) : List (Deed σ ν) :=
  history.filterMap (Entry.deedOf index)

@[simp] theorem deedsOf_concat : deedsOf index (history ++ [entry]) =
    deedsOf index history ++ (entry.deedOf index).toList :=
  filterMap_concat _ history entry

theorem deedsOf_silent (silent : entry.deedOf index = none) :
    deedsOf index (history ++ [entry]) = deedsOf index history := by
  rw [deedsOf_concat, silent, Option.toList_none, List.append_nil]

theorem deedsOf_other {place : Nat} (apart : place ≠ index) (deed : Deed σ ν) :
    deedsOf index (history ++ [.dispatch place deed]) = deedsOf index history :=
  deedsOf_silent (if_neg apart)

theorem deedsOf_dispatch (deed : Deed σ ν) :
    deedsOf index (history ++ [.dispatch index deed]) = deedsOf index history ++ [deed] := by
  rw [deedsOf_concat, Entry.deedOf, if_pos rfl, Option.toList_some]

/-- What was done to run a task that is over: no handler was found, and none was called; or the
handler that was found was called, once, and its work came to the outcome. -/
inductive Completed (context : Context) (param : TaskParam) :
    List (Deed σ ν) → Outcome Unit → List ν → Prop
  | missing : Completed context param [.began context param, .sought none]
      (.failed (.handlerNotFound param.taskName)) []
  | called {handler : Handler σ ν} {sights : List (Sight σ)} {rest : Work σ ν}
      {outcome : Outcome Unit} {notes : List ν} :
      (handler context param).replay sights = some (rest, notes) → rest.outcome? = some outcome →
      Completed context param (.began context param :: .sought (some handler) ::
        .called handler context param :: sights.map .worked) outcome notes

/-- A deed is in its place after what was done before: the handler that is found is the one in
force, and what is called is the handler that was found. -/
def Deed.Right (history : List (Entry σ ν)) (earlier : List (Deed σ ν)) : Deed σ ν → Prop
  | .began _ _ => earlier = []
  | .sought found =>
      ∃ context param, earlier = [.began context param] ∧ Tells history param.taskName found
  | .called handler context param => earlier = [.began context param, .sought (some handler)]
  | .worked sight =>
      ∃ handler context param sights, earlier = .began context param :: .sought (some handler) ::
          .called handler context param :: sights.map .worked ∧
        ((handler context param).replay (sights ++ [sight])).isSome = true
  | .returned outcome notes => ∃ context param, Completed context param earlier outcome notes

def Entry.Right (before : List (Entry σ ν)) : Entry σ ν → Prop
  | .registered name _ displaced => Tells before name displaced
  | .unregistered name removed => removed = true ↔ ∃ handler, InForce before name handler
  | .lookedUp name found => Tells before name found
  | .asked name present => present = true ↔ ∃ handler, InForce before name handler
  | .listed names => Lists before names
  | .counted number => ∃ names, Lists before names ∧ number = names.length
  | .dispatch index deed => deed.Right before (deedsOf index before)

def Lawful (history : List (Entry σ ν)) : Prop :=
  ∀ before entry after, history = before ++ entry :: after → entry.Right before

theorem Lawful.concat (lawful : Lawful history) (right : entry.Right history) :
    Lawful (history ++ [entry]) := by
  intro before other after whole
  rcases concat_split whole with ⟨rfl, rfl, rfl⟩ | ⟨others, rfl, rfl⟩
  · exact right
  · exact lawful before other others rfl

end History

def Dispatch.Fits (dispatch : Dispatch σ ν) (deeds : List (Deed σ ν)) : Prop :=
  match dispatch.phase with
  | .seeking => deeds = [.began dispatch.context dispatch.param] ∧ dispatch.notes = []
  | .sought found =>
      deeds = [.began dispatch.context dispatch.param, .sought found] ∧ dispatch.notes = []
  | .working work =>
      ∃ handler sights, deeds = .began dispatch.context dispatch.param :: .sought (some handler) ::
          .called handler dispatch.context dispatch.param :: sights.map .worked ∧
        (handler dispatch.context dispatch.param).replay sights = some (work, dispatch.notes)
  | .returned outcome =>
      ∃ course, deeds = course ++ [.returned outcome dispatch.notes] ∧
        Completed dispatch.context dispatch.param course outcome dispatch.notes

theorem Dispatch.Fits.step {dispatch : Dispatch σ ν} {history : List (Entry σ ν)}
    {deeds : List (Deed σ ν)} {registry : Registry (Handler σ ν)} {shared : σ} {act : Act σ ν}
    (fits : dispatch.Fits deeds) (tells : ∀ name, Tells history name (registry.lookup name))
    (acted : dispatch.step registry shared = some act) :
    act.deed.Right history deeds ∧ act.next.Fits (deeds ++ [act.deed]) := by
  obtain ⟨context, param, cancelled, notes, phase⟩ := dispatch
  cases phase with
  | seeking =>
      obtain ⟨rfl, noNotes⟩ := fits
      obtain rfl := Option.some.inj acted
      exact ⟨⟨context, param, rfl, tells param.taskName⟩, rfl, noNotes⟩
  | sought found =>
      obtain ⟨rfl, noNotes⟩ := fits
      simp only at noNotes
      subst notes
      cases found with
      | none =>
          obtain rfl := Option.some.inj acted
          exact ⟨⟨context, param, .missing⟩, _, rfl, .missing⟩
      | some handler =>
          obtain rfl := Option.some.inj acted
          exact ⟨rfl, handler, [], rfl, rfl⟩
  | working work =>
      obtain ⟨handler, sights, rfl, replayed⟩ := fits
      cases ended : work.outcome? with
      | some outcome =>
          simp only [Dispatch.step, ended, Option.some.injEq] at acted
          subst act
          have completed := Completed.called replayed ended
          exact ⟨⟨context, param, completed⟩, _, rfl, completed⟩
      | none =>
          simp only [Dispatch.step, ended, Option.map_eq_some_iff] at acted
          obtain ⟨stride, advanced, rfl⟩ := acted
          have further := Work.replay_concat replayed advanced
          refine ⟨⟨handler, context, param, sights, rfl, by rw [further]; rfl⟩, ?_⟩
          exact ⟨handler, sights ++ [⟨cancelled, shared⟩], by simp, further⟩
  | returned outcome => simp [Dispatch.step] at acted

section Working

variable {registry : Registry (Handler σ ν)} {shared : σ} {context : Context} {param : TaskParam}
  {cancelled : Bool} {notes : List ν} {work : Work σ ν}

theorem Dispatch.step_ended {outcome : Outcome Unit} (ended : work.outcome? = some outcome) :
    Dispatch.step registry shared ⟨context, param, cancelled, notes, .working work⟩ =
      some ⟨.returned outcome notes, ⟨context, param, cancelled, notes, .returned outcome⟩,
        shared⟩ := by
  simp only [Dispatch.step, ended]

theorem Dispatch.step_working {stride : Work.Stride σ ν}
    (advanced : work.advance ⟨cancelled, shared⟩ = some stride) :
    Dispatch.step registry shared ⟨context, param, cancelled, notes, .working work⟩ =
      some ⟨.worked ⟨cancelled, shared⟩,
        ⟨context, param, stride.sight.cancelled, notes ++ stride.notes, .working stride.rest⟩,
        stride.sight.shared⟩ := by
  simp only [Dispatch.step, Work.outcome_of_advance advanced, advanced, Option.map_some]

end Working

theorem Dispatch.steps (dispatch : Dispatch σ ν) (registry : Registry (Handler σ ν)) (shared : σ) :
    (∃ outcome, dispatch.phase = .returned outcome) ∨
      (∃ next, dispatch.phase = .working (.awaitCancel next) ∧ dispatch.cancelled = false) ∨
      ∃ act, dispatch.step registry shared = some act := by
  obtain ⟨context, param, cancelled, notes, phase⟩ := dispatch
  cases phase with
  | seeking => exact .inr (.inr ⟨_, rfl⟩)
  | sought found => cases found <;> exact .inr (.inr ⟨_, rfl⟩)
  | working work =>
      cases advanced : work.advance ⟨cancelled, shared⟩ with
      | some stride => exact .inr (.inr ⟨_, Dispatch.step_working advanced⟩)
      | none =>
          rcases Work.advance_eq_none advanced with ⟨outcome, ended⟩ | ⟨next, rfl, waits⟩
          · exact .inr (.inr ⟨_, Dispatch.step_ended ended⟩)
          · exact .inr (.inl ⟨next, rfl, waits⟩)
  | returned outcome => exact .inl ⟨outcome, rfl⟩

namespace Traffic

open Relation (ReflTransGen)

variable {traffic after : Traffic σ ν} {index : Nat}

structure Sound (traffic : Traffic σ ν) : Prop where
  lawful : Lawful traffic.history
  tells : ∀ name, Tells traffic.history name (traffic.registry.lookup name)
  fits : ∀ index (dispatch : Dispatch σ ν), traffic.dispatches[index]? = some dispatch →
    dispatch.Fits (deedsOf index traffic.history)
  begun : ∀ index, traffic.dispatches.length ≤ index → deedsOf index traffic.history = []

theorem sound_ofState (shared : σ) : Sound (ofState shared : Traffic σ ν) where
  lawful := by
    intro before entry after whole
    simp [ofState] at whole
  tells := by
    intro name handler
    constructor
    · exact nofun
    · rintro ⟨before, displaced, after, whole, _⟩
      simp [ofState] at whole
  fits := nofun
  begun := fun _ _ => rfl

theorem proceed_eq_some_iff : traffic.proceed index = some after ↔
    ∃ dispatch act, traffic.dispatches[index]? = some dispatch ∧
      dispatch.step traffic.registry traffic.shared = some act ∧
      { traffic with shared := act.shared }.enact index act.next act.deed = after := by
  simp only [Traffic.proceed, Option.bind_eq_some_iff, Option.map_eq_some_iff]
  constructor
  · rintro ⟨dispatch, found, act, acted, rfl⟩
    exact ⟨dispatch, act, found, acted, rfl⟩
  · rintro ⟨dispatch, act, found, acted, rfl⟩
    exact ⟨dispatch, found, act, acted, rfl⟩

section Steps

variable (sound : traffic.Sound)
include sound

theorem Sound.present_iff {name : String} :
    (∃ handler, traffic.registry.lookup name = some handler) ↔
      ∃ handler, InForce traffic.history name handler :=
  exists_congr (sound.tells name)

theorem Sound.lists : Lists traffic.history traffic.registry.names :=
  ⟨Dictionary.keys_increase _, fun _ => mem_names_iff.trans sound.present_iff⟩

theorem Sound.record {registry : Registry (Handler σ ν)} {entry : Entry σ ν}
    (right : entry.Right traffic.history) (silent : ∀ index, entry.deedOf index = none)
    (tells : ∀ name, Tells (traffic.history ++ [entry]) name (registry.lookup name)) :
    ({ traffic with registry }.record entry).Sound where
  lawful := sound.lawful.concat right
  tells := tells
  fits := by
    intro index dispatch found
    rw [Traffic.record, deedsOf_silent (silent index)]
    exact sound.fits index dispatch found
  begun := by
    intro index beyond
    rw [Traffic.record, deedsOf_silent (silent index)]
    exact sound.begun index beyond

theorem Sound.answer {entry : Entry σ ν} (right : entry.Right traffic.history)
    (silent : ∀ index, entry.deedOf index = none) (unchanged : ∀ name, ¬entry.Changes name) :
    (traffic.record entry).Sound :=
  sound.record right silent fun name => (sound.tells name).unchanged (unchanged name)

theorem Sound.tells_changed {entry : Entry σ ν} {name : String} {found : Option (Handler σ ν)}
    (tells : Tells (traffic.history ++ [entry]) name found)
    (others : ∀ other, entry.Changes other → name = other) (other : String) :
    Tells (traffic.history ++ [entry]) other
      (if name = other then found else traffic.registry.lookup other) := by
  by_cases same : name = other
  · rw [if_pos same, ← same]
    exact tells
  · rw [if_neg same]
    exact (sound.tells other).unchanged fun changes => same (others other changes)

theorem Sound.register (name : String) (handler : Handler σ ν) :
    (traffic.register name handler).Sound := by
  refine sound.record (sound.tells name) (fun _ => rfl) ?_
  intro other
  rw [lookup_register]
  exact sound.tells_changed (tells_registered _) (fun _ => id) other

theorem Sound.unregister (name : String) : (traffic.unregister name).Sound := by
  refine sound.record (unregister_iff.trans sound.present_iff) (fun _ => rfl) ?_
  intro other
  rw [lookup_unregister]
  exact sound.tells_changed (tells_unregistered _) (fun _ => id) other

theorem Sound.run (context : Context) (cancelled : Bool) (param : TaskParam) :
    (traffic.run context cancelled param).Sound where
  lawful := sound.lawful.concat (sound.begun _ (Nat.le_refl _))
  tells := fun name => (sound.tells name).unchanged nofun
  fits := by
    intro index dispatch found
    rw [Traffic.run, Traffic.record]
    rcases getElem?_concat_cases found with old | ⟨rfl, rfl⟩
    · have within := (List.getElem?_eq_some_iff.mp old).1
      have apart : traffic.dispatches.length ≠ index := by omega
      rw [deedsOf_other apart]
      exact sound.fits index dispatch old
    · rw [deedsOf_dispatch, sound.begun _ (Nat.le_refl _)]
      exact ⟨rfl, rfl⟩
  begun := by
    intro index beyond
    simp only [Traffic.run, Traffic.record, List.length_append, List.length_singleton] at beyond ⊢
    have apart : traffic.dispatches.length ≠ index := by omega
    rw [deedsOf_other apart]
    exact sound.begun index (by omega)

theorem Sound.share (shared : σ) : ({ traffic with shared } : Traffic σ ν).Sound :=
  ⟨sound.lawful, sound.tells, sound.fits, sound.begun⟩

theorem Sound.cancel (index : Nat) : (traffic.cancel index).Sound where
  lawful := sound.lawful
  tells := sound.tells
  fits := by
    intro place dispatch found
    simp only [Traffic.cancel, List.getElem?_modify, Option.map_eq_map,
      Option.map_eq_some_iff] at found
    obtain ⟨old, foundOld, rfl⟩ := found
    have fits := sound.fits place old foundOld
    split <;> exact fits
  begun := by
    intro place beyond
    exact sound.begun place (by simpa [Traffic.cancel] using beyond)

theorem Sound.enact {dispatch next : Dispatch σ ν} {deed : Deed σ ν}
    (found : traffic.dispatches[index]? = some dispatch)
    (right : deed.Right traffic.history (deedsOf index traffic.history))
    (fits : next.Fits (deedsOf index traffic.history ++ [deed])) :
    (traffic.enact index next deed).Sound where
  lawful := sound.lawful.concat right
  tells := fun name => (sound.tells name).unchanged nofun
  fits := by
    have within := (List.getElem?_eq_some_iff.mp found).1
    intro place other foundOther
    rw [Traffic.enact, Traffic.record]
    simp only [Traffic.enact, Traffic.record, List.getElem?_set] at foundOther
    by_cases same : index = place
    · subst place
      simp only [if_true, within, Option.some.injEq] at foundOther
      subst other
      rw [deedsOf_dispatch]
      exact fits
    · rw [if_neg same] at foundOther
      rw [deedsOf_other same]
      exact sound.fits place other foundOther
  begun := by
    have within := (List.getElem?_eq_some_iff.mp found).1
    intro place beyond
    simp only [Traffic.enact, Traffic.record, List.length_set] at beyond ⊢
    have apart : index ≠ place := by omega
    rw [deedsOf_other apart]
    exact sound.begun place beyond

theorem Sound.proceed (stepped : traffic.proceed index = some after) : after.Sound := by
  obtain ⟨dispatch, act, found, acted, rfl⟩ := proceed_eq_some_iff.mp stepped
  obtain ⟨right, fits⟩ := (sound.fits index dispatch found).step sound.tells acted
  exact (sound.share act.shared).enact found right fits

theorem Sound.moves (moved : Moves traffic after) : after.Sound := by
  cases moved with
  | register name handler => exact sound.register name handler
  | registerTyped type handle => exact sound.register type.name (type.handler handle)
  | unregister name => exact sound.unregister name
  | lookup name => exact sound.answer (sound.tells name) (fun _ => rfl) (fun _ => id)
  | contains name =>
      exact sound.answer (contains_iff.trans sound.present_iff) (fun _ => rfl) (fun _ => id)
  | names => exact sound.answer sound.lists (fun _ => rfl) (fun _ => id)
  | size => exact sound.answer ⟨_, sound.lists, size_eq⟩ (fun _ => rfl) (fun _ => id)
  | run context cancelled param => exact sound.run context cancelled param
  | proceed index stepped => exact sound.proceed stepped
  | cancel index => exact sound.cancel index
  | share shared => exact sound.share shared

end Steps

theorem sound_of_reached {shared : σ} (reached : ReflTransGen Moves (ofState shared) traffic) :
    traffic.Sound := by
  induction reached with
  | refl => exact sound_ofState shared
  | tail _ moved sound => exact sound.moves moved

theorem lookup_moves (moved : Moves traffic after) (name : String) :
    after.registry.lookup name = traffic.registry.lookup name ∨
      ∃ entry : Entry σ ν, entry.Changes name ∧ after.history = traffic.history ++ [entry] := by
  have registering (other : String) (handler : Handler σ ν) :
      (traffic.register other handler).registry.lookup name = traffic.registry.lookup name ∨
        ∃ entry : Entry σ ν, entry.Changes name ∧
          (traffic.register other handler).history = traffic.history ++ [entry] := by
    by_cases same : other = name
    · exact .inr ⟨.registered other handler _, same, rfl⟩
    · exact .inl ((lookup_register ..).trans (if_neg same))
  cases moved with
  | register other handler => exact registering other handler
  | registerTyped type handle => exact registering type.name (type.handler handle)
  | unregister other =>
      by_cases same : other = name
      · exact .inr ⟨.unregistered other _, same, rfl⟩
      · exact .inl ((lookup_unregister ..).trans (if_neg same))
  | proceed index stepped =>
      obtain ⟨dispatch, act, _, _, rfl⟩ := proceed_eq_some_iff.mp stepped
      exact .inl rfl
  | _ => exact .inl rfl

theorem proceeds {dispatch : Dispatch σ ν} (found : traffic.dispatches[index]? = some dispatch) :
    (∃ outcome, dispatch.phase = .returned outcome) ∨
      (∃ next, dispatch.phase = .working (.awaitCancel next) ∧ dispatch.cancelled = false) ∨
      ∃ after, traffic.proceed index = some after := by
  rcases dispatch.steps traffic.registry traffic.shared with returned | waits | ⟨act, acted⟩
  · exact .inl returned
  · exact .inr (.inl waits)
  · exact .inr (.inr ⟨_, proceed_eq_some_iff.mpr ⟨dispatch, act, found, acted, rfl⟩⟩)

/-- With nobody else at it, a task comes to this answer, and leaves this to be shared. Without an
outcome it is never over. -/
def RunsTo (traffic : Traffic σ ν) (index : Nat) (answer : Answer ν) (shared : σ) : Prop :=
  ∃ after last, ReflTransGen (fun before after => before.proceed index = some after) traffic after ∧
    after.dispatches[index]? = some last ∧ after.registry = traffic.registry ∧
    after.shared = shared ∧ last.notes = answer.notes ∧
    ∀ outcome, last.phase = .returned outcome ↔ answer.outcome = some outcome

theorem RunsTo.of_step {dispatch : Dispatch σ ν} {act : Act σ ν} {answer : Answer ν} {shared : σ}
    (found : traffic.dispatches[index]? = some dispatch)
    (acted : dispatch.step traffic.registry traffic.shared = some act)
    (goesOn : let after := { traffic with shared := act.shared }.enact index act.next act.deed
      after.dispatches[index]? = some act.next → after.RunsTo index answer shared) :
    traffic.RunsTo index answer shared := by
  have within := (List.getElem?_eq_some_iff.mp found).1
  obtain ⟨after, last, alone, rest⟩ := goesOn (by simp [enact, record, within])
  have proceeded := proceed_eq_some_iff.mpr ⟨dispatch, act, found, acted, rfl⟩
  exact ⟨after, last, .head proceeded alone, rest⟩

theorem returned_runsTo {dispatch : Dispatch σ ν} {outcome : Outcome Unit}
    (found : traffic.dispatches[index]? = some dispatch)
    (returned : dispatch.phase = .returned outcome) :
    traffic.RunsTo index ⟨some outcome, dispatch.notes⟩ traffic.shared :=
  ⟨traffic, dispatch, .refl, found, rfl, rfl, rfl, by simp [returned]⟩

theorem working_runsTo (work : Work σ ν) {dispatch : Dispatch σ ν}
    (found : traffic.dispatches[index]? = some dispatch)
    (working : dispatch.phase = .working work) :
    let ran := work.run dispatch.cancelled traffic.shared
    traffic.RunsTo index ⟨ran.outcome, dispatch.notes ++ ran.notes⟩ ran.state := by
  -- each step leaves less work, in a state in which it goes on
  induction work using Work.induction_on_steps generalizing traffic dispatch with
  | step work ih =>
      obtain ⟨context, param, cancelled, notes, phase⟩ := dispatch
      simp only at working
      subst phase
      cases advanced : work.advance ⟨cancelled, traffic.shared⟩ with
      | some stride =>
          simp only [Work.run_of_advance advanced, ← List.append_assoc]
          exact .of_step found (Dispatch.step_working advanced) fun foundNext =>
            ih _ stride advanced foundNext rfl
      | none =>
          rcases Work.advance_eq_none advanced with ⟨outcome, ended⟩ | ⟨next, rfl, waits⟩
          · simp only [Work.run_of_outcome ended, List.append_nil]
            exact .of_step found (Dispatch.step_ended ended) fun foundNext =>
              returned_runsTo foundNext rfl
          · simp only at waits
            subst cancelled
            exact ⟨traffic, _, .refl, found, rfl, rfl, by simp [Work.run], by simp [Work.run]⟩

theorem sought_runsTo {registry : Registry (Handler σ ν)} {context : Context} {param : TaskParam}
    {cancelled : Bool} {sought : Option (Handler σ ν)}
    (looked : registry.lookup param.taskName = sought)
    (found : traffic.dispatches[index]? =
      some ⟨context, param, cancelled, [], .sought sought⟩) :
    let ran := Session.run ⟨registry, none, traffic.shared⟩ context cancelled param
    traffic.RunsTo index ran.1 ran.2.shared := by
  cases sought with
  | none =>
      simp only [Session.run, looked]
      exact .of_step found rfl fun foundNext => returned_runsTo foundNext rfl
  | some handler =>
      simp only [Session.run, looked, Session.call]
      exact .of_step found rfl fun foundNext => working_runsTo (handler context param) foundNext rfl

theorem run_undisturbed (context : Context) (cancelled : Bool) (param : TaskParam) :
    let ran := Session.run ⟨traffic.registry, none, traffic.shared⟩ context cancelled param
    (traffic.run context cancelled param).RunsTo traffic.dispatches.length ran.1 ran.2.shared := by
  have found : (traffic.run context cancelled param).dispatches[traffic.dispatches.length]? =
      some ⟨context, param, cancelled, [], .seeking⟩ := by simp [Traffic.run, record]
  exact .of_step found rfl fun foundNext => sought_runsTo rfl foundNext

/-- Whatever is done with a registry and in whatever order, each answer is what the history before
tells: a handler is found under a name if it was registered there last and has not been removed, and
names are listed in order if there is one. Only registrations and removals under a name change what
is found there. A task that is run calls the handler that was in force when it was looked up, and no
other, and has the outcome of its work; and it goes on to this end unless the work waits for a
cancellation. -/
theorem last_registration_counts {shared : σ}
    (reached : ReflTransGen Moves (ofState shared) traffic) :
    Lawful traffic.history ∧
      (∀ name, Tells traffic.history name (traffic.registry.lookup name)) ∧
      (∀ after, Moves traffic after → ∀ name,
        after.registry.lookup name = traffic.registry.lookup name ∨
          ∃ entry : Entry σ ν, entry.Changes name ∧
            after.history = traffic.history ++ [entry]) ∧
      (∀ index (dispatch : Dispatch σ ν) outcome,
        traffic.dispatches[index]? = some dispatch → dispatch.phase = .returned outcome →
        ∃ course, deedsOf index traffic.history = course ++ [.returned outcome dispatch.notes] ∧
          Completed dispatch.context dispatch.param course outcome dispatch.notes) ∧
      ∀ index (dispatch : Dispatch σ ν), traffic.dispatches[index]? = some dispatch →
        (∃ outcome, dispatch.phase = .returned outcome) ∨
          (∃ next, dispatch.phase = .working (.awaitCancel next) ∧ dispatch.cancelled = false) ∨
          ∃ after, traffic.proceed index = some after := by
  have sound := sound_of_reached reached
  refine ⟨sound.lawful, sound.tells, fun after moved => lookup_moves moved, ?_,
    fun index dispatch => proceeds⟩
  intro index dispatch outcome found returned
  have fits := sound.fits index dispatch found
  rwa [Dispatch.Fits, returned] at fits

/-! A handler is replaced and removed while a task is with it, and then a task of the same name
finds none. -/

def hasty : Handler Unit Unit := fun _ _ => Work.fail (.handler "hasty")

def slow : Handler Unit Unit := fun _ _ => .sleep 5 (Work.fail (.handler "slow"))

def ping : TaskParam := TaskParam.ofName "ping" .null

def pingContext : Context := ⟨⟨"m-1"⟩, "tasks"⟩

theorem last_registration_counts_midway :
    ∃ traffic : Traffic Unit Unit, ReflTransGen Moves (ofState ()) traffic ∧
      traffic.history = [.registered "ping" slow none, .dispatch 0 (.began pingContext ping),
        .dispatch 0 (.sought (some slow)), .registered "ping" hasty (some slow),
        .dispatch 0 (.called slow pingContext ping), .unregistered "ping" true,
        .dispatch 0 (.worked ⟨false, ()⟩), .dispatch 0 (.returned (.failed (.handler "slow")) []),
        .dispatch 1 (.began pingContext ping), .dispatch 1 (.sought none),
        .dispatch 1 (.returned (.failed (.handlerNotFound "ping")) []), .counted 0] ∧
      Lawful traffic.history ∧
      ∀ name, Tells traffic.history name (traffic.registry.lookup name) := by
  have start : ReflTransGen Moves (ofState () : Traffic Unit Unit) _ := .refl
  have reached := start.tail (.register "ping" slow) |>.tail (.run pingContext false ping)
    |>.tail (.proceed 0 rfl) |>.tail (.register "ping" hasty) |>.tail (.proceed 0 rfl)
    |>.tail (.unregister "ping") |>.tail (.proceed 0 rfl) |>.tail (.proceed 0 rfl)
    |>.tail (.run pingContext false ping) |>.tail (.proceed 1 rfl) |>.tail (.proceed 1 rfl)
    |>.tail .size
  obtain ⟨lawful, tells, _⟩ := last_registration_counts reached
  exact ⟨_, reached, rfl, lawful, tells⟩

end Traffic

end Registry

end TaskQueue
