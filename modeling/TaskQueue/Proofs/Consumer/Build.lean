import TaskQueue.Consumer.Build
import TaskQueue.Proofs.Consumer.Run

/-!
What comes of building a consumer. Settings that ask for nothing and expected tasks that nobody
handles are refused with an error that says so. Settings that ask for too much are not: they pass
the check, and the building breaks down.
-/

namespace TaskQueue

namespace ConsumerConfig

structure Sensible (config : ConsumerConfig) : Prop where
  room : config.maxConcurrency ≠ some 0
  time : config.messageTimeoutMs ≠ some 0

def Permitted (config : ConsumerConfig) : Prop :=
  ∀ limit, config.maxConcurrency = some limit → limit.toNat < 0x2000000000000000

def Storable (config : ConsumerConfig) : Prop :=
  config.payloadPoolCapacity.toNat * Pool.objectSize < 0x8000000000000000

theorem permitted_iff {config : ConsumerConfig} :
    config.Permitted ↔ ¬Consumer.maxPermits < (config.maxConcurrency.map UInt64.toNat).getD 0 := by
  unfold Permitted Consumer.maxPermits
  cases config.maxConcurrency with
  | none => simp
  | some limit =>
      simp only [Option.some.injEq, forall_eq', Option.map_some, Option.getD_some]
      omega

theorem storable_iff {config : ConsumerConfig} :
    config.Storable ↔ Pool.canHold config.payloadPoolCapacity = true := by
  simp [Storable, Pool.canHold]

end ConsumerConfig

namespace Consumer.Plan

variable {σ ν : Type} {plan : Plan σ ν} {broker : Broker} {shared : σ}

/-- The names are those of the expected tasks that nobody handles, in their order and as often. -/
structure Lacks (plan : Plan σ ν) (names : List String) : Prop where
  order : names.Sublist plan.expected
  count : ∀ name, names.count name =
    if (plan.registry.lookup name).isSome then 0 else plan.expected.count name

theorem contains_eq (registry : Registry (Handler σ ν)) (name : String) :
    registry.contains name = (registry.lookup name).isSome := rfl

theorem lacks_missing (plan : Plan σ ν) : plan.Lacks plan.missing := by
  refine ⟨List.filter_sublist, fun name => ?_⟩
  by_cases handled : (plan.registry.lookup name).isSome
  · rw [if_pos handled, List.count_eq_zero]
    intro taken
    have unhandled := (List.mem_filter.mp taken).2
    rw [contains_eq, handled] at unhandled
    simp at unhandled
  · rw [if_neg handled]
    apply List.count_filter
    simpa [contains_eq] using handled

theorem Lacks.eq_missing {names : List String} (lacks : plan.Lacks names) :
    names = plan.missing := by
  have counted : names.Perm plan.missing :=
    List.perm_iff_count.mpr fun name =>
      (lacks.count name).trans ((lacks_missing plan).count name).symm
  have unhandled : names.filter (fun name => !plan.registry.contains name) = names := by
    apply List.filter_eq_self.mpr
    intro name taken
    exact (List.mem_filter.mp (counted.mem_iff.mp taken)).2
  have sublist := lacks.order.filter fun name => !plan.registry.contains name
  rw [unhandled] at sublist
  exact sublist.eq_of_length counted.length_eq

inductive Outcome (plan : Plan σ ν) (broker : Broker) (shared : σ) : Built σ ν → Prop
  | noRoom : plan.setup.config.maxConcurrency = some 0 →
      Outcome plan broker shared (.refused .invalidConcurrency)
  | noTime : plan.setup.config.maxConcurrency ≠ some 0 →
      plan.setup.config.messageTimeoutMs = some 0 →
      Outcome plan broker shared (.refused .invalidTimeout)
  | unhandled {names : List String} : plan.setup.config.Sensible → plan.Lacks names → names ≠ [] →
      Outcome plan broker shared (.refused (.missingTaskTypes names))
  | unpermitted : plan.setup.config.Sensible → plan.Lacks [] → ¬plan.setup.config.Permitted →
      Outcome plan broker shared (.broken tooManyPermits)
  | unstorable : plan.setup.config.Sensible → plan.Lacks [] → plan.setup.config.Permitted →
      ¬plan.setup.config.Storable → Outcome plan broker shared (.broken Pool.tooMuchStorage)
  | ready : plan.setup.config.Sensible → plan.Lacks [] → plan.setup.config.Permitted →
      plan.setup.config.Storable →
      Outcome plan broker shared (.ready (State.start plan.setup plan.registry broker shared))

theorem check_ok (sensible : plan.setup.config.Sensible) (lacks : plan.Lacks []) :
    plan.check = .ok () := by
  have none := lacks.eq_missing
  simp [check, ConsumerConfig.validate, sensible.room, sensible.time, ← none]

theorem Outcome.build_eq {built : Built σ ν} (outcome : plan.Outcome broker shared built) :
    plan.build broker shared = built := by
  cases outcome with
  | noRoom none => simp [build, check, ConsumerConfig.validate, none]
  | noTime room none => simp [build, check, ConsumerConfig.validate, room, none]
  | unhandled sensible lacks some =>
      obtain rfl := lacks.eq_missing
      simp [build, check, ConsumerConfig.validate, sensible.room, sensible.time, some]
  | unpermitted sensible lacks tooMany =>
      rw [ConsumerConfig.permitted_iff, Classical.not_not] at tooMany
      simp only [build, check_ok sensible lacks, breakdown?, if_pos tooMany]
  | unstorable sensible lacks permitted tooMuch =>
      rw [ConsumerConfig.permitted_iff] at permitted
      rw [ConsumerConfig.storable_iff] at tooMuch
      simp only [build, check_ok sensible lacks, breakdown?, if_neg permitted, if_neg tooMuch]
  | ready sensible lacks permitted storable =>
      rw [ConsumerConfig.permitted_iff] at permitted
      rw [ConsumerConfig.storable_iff] at storable
      simp only [build, check_ok sensible lacks, breakdown?, if_neg permitted, if_pos storable]

theorem exists_outcome (plan : Plan σ ν) (broker : Broker) (shared : σ) :
    ∃ built, plan.Outcome broker shared built := by
  by_cases noRoom : plan.setup.config.maxConcurrency = some 0
  · exact ⟨_, .noRoom noRoom⟩
  by_cases noTime : plan.setup.config.messageTimeoutMs = some 0
  · exact ⟨_, .noTime noRoom noTime⟩
  have sensible : plan.setup.config.Sensible := ⟨noRoom, noTime⟩
  have lacks := lacks_missing plan
  by_cases handled : plan.missing = []
  · rw [handled] at lacks
    by_cases permitted : plan.setup.config.Permitted
    · by_cases storable : plan.setup.config.Storable
      · exact ⟨_, .ready sensible lacks permitted storable⟩
      · exact ⟨_, .unstorable sensible lacks permitted storable⟩
    · exact ⟨_, .unpermitted sensible lacks permitted⟩
  · exact ⟨_, .unhandled sensible lacks handled⟩

/-- What the building of a consumer comes to. It is refused with the error that the settings or the
expected tasks call for; what is not refused is a consumer with these settings, unless there cannot
be so many permits or so much storage: then the building breaks down. -/
theorem build_iff_outcome {built : Built σ ν} :
    plan.build broker shared = built ↔ plan.Outcome broker shared built := by
  refine ⟨?_, Outcome.build_eq⟩
  rintro rfl
  obtain ⟨built, outcome⟩ := exists_outcome plan broker shared
  rwa [outcome.build_eq]

def ofConfig (config : ConsumerConfig) : Plan Unit Unit :=
  ⟨Setup.usual config Recovery.report Transport.prompt, Registry.empty, []⟩

def onlyVariable (key value : String) : String → Option String := fun other =>
  if other = key then some value else none

/-- A variable may give a limit, or a size of the pool, that makes sense but breaks the building
down. -/
theorem breaks_down_on_variable :
    (∃ config, ConsumerConfig.ofVariables
        (onlyVariable ConsumerConfig.Variable.maxConcurrency "2305843009213693952") = .ok config ∧
      config.Sensible ∧
      (ofConfig config).build Broker.empty () = .broken tooManyPermits) ∧
    ∃ config, ConsumerConfig.ofVariables
        (onlyVariable ConsumerConfig.Variable.payloadPoolCapacity "18446744073709551615") =
          .ok config ∧
      config.Sensible ∧
      (ofConfig config).build Broker.empty () = .broken Pool.tooMuchStorage := by
  constructor
  · refine ⟨{ ConsumerConfig.default with maxConcurrency := some 0x2000000000000000 }, rfl, ?_,
      rfl⟩
    exact ⟨by decide, by decide⟩
  · refine ⟨{ ConsumerConfig.default with payloadPoolCapacity := 0xFFFFFFFFFFFFFFFF }, rfl, ?_,
      rfl⟩
    exact ⟨by decide, by decide⟩

end Consumer.Plan

end TaskQueue
