import Mathlib.Data.Set.Operations
import Mathlib.Order.Bounds.Defs
import TaskQueue.Config

/-!
Settings that are lengths of time. They are kept in whole milliseconds of 64 bits, rounded up: a
setting is as long as it was asked for or longer by less than a millisecond, nothing becomes zero
but zero, and what does not fit becomes the longest time that does.
-/

namespace TaskQueue

namespace Duration

instance : LE Duration := ⟨fun shorter longer => shorter.nanoseconds ≤ longer.nanoseconds⟩

theorem le_iff {shorter longer : Duration} :
    shorter ≤ longer ↔ shorter.nanoseconds ≤ longer.nanoseconds := Iff.rfl

def mostMilliseconds : UInt64 := 0xFFFFFFFFFFFFFFFF

def longest : Duration := ofMilliseconds mostMilliseconds

/-- How the milliseconds that are kept stand to the time that was asked for. -/
structure RoundsUp (kept : Duration → UInt64) : Prop where
  least : ∀ asked : Duration, asked ≤ longest →
    IsLeast {count : Nat | asked.nanoseconds ≤ count * 1000000} (kept asked).toNat
  capped : ∀ asked : Duration, ¬asked ≤ longest → kept asked = mostMilliseconds
  le_iff : ∀ (asked : Duration) (bound : UInt64), bound < mostMilliseconds →
    (kept asked ≤ bound ↔ asked ≤ ofMilliseconds bound)
  monotone : ∀ shorter longer : Duration, shorter ≤ longer → kept shorter ≤ kept longer
  enough : ∀ asked : Duration, asked ≤ longest → asked ≤ ofMilliseconds (kept asked)
  close : ∀ asked : Duration,
    (ofMilliseconds (kept asked)).nanoseconds < asked.nanoseconds + 1000000

theorem toNat_millisecondsUp (asked : Duration) : asked.millisecondsUp.toNat =
    min ((asked.nanoseconds + 999999) / 1000000) 18446744073709551615 := by
  have fits : min ((asked.nanoseconds + 999999) / 1000000) (UInt64.size - 1) < UInt64.size :=
    Nat.lt_of_le_of_lt (Nat.min_le_right _ _) (by decide)
  rw [millisecondsUp, Nat.toUInt64_eq, UInt64.toNat_ofNat_of_lt' fits]
  rfl

@[simp] theorem toNat_mostMilliseconds : mostMilliseconds.toNat = 18446744073709551615 := rfl

/-- All that rounding promises follows from what it makes of the bounds below the greatest. -/
theorem toNat_millisecondsUp_le_iff (asked : Duration) {bound : Nat}
    (small : bound < 18446744073709551615) :
    asked.millisecondsUp.toNat ≤ bound ↔ asked.nanoseconds ≤ bound * 1000000 := by
  rw [toNat_millisecondsUp]
  omega

theorem millisecondsUp_eq_zero_iff (asked : Duration) :
    asked.millisecondsUp = 0 ↔ asked.nanoseconds = 0 := by
  have zero : asked.millisecondsUp.toNat ≤ 0 ↔ asked.nanoseconds ≤ 0 * 1000000 :=
    asked.toNat_millisecondsUp_le_iff (by decide)
  rw [← UInt64.toNat_inj, UInt64.toNat_zero]
  omega

theorem roundsUp_millisecondsUp : RoundsUp millisecondsUp := by
  have within (asked : Duration) : asked ≤ longest ↔
      asked.nanoseconds ≤ 18446744073709551615000000 := Iff.rfl
  refine ⟨?least, ?capped, ?le_iff, ?monotone, ?enough, ?close⟩
  case least =>
    intro asked fits
    have number := asked.toNat_millisecondsUp
    rw [within] at fits
    constructor
    · rw [Set.mem_ofPred_eq]
      omega
    · intro count covers
      rw [Set.mem_ofPred_eq] at covers
      omega
  case capped =>
    intro asked beyond
    have number := asked.toNat_millisecondsUp
    rw [within] at beyond
    rw [← UInt64.toNat_inj, toNat_mostMilliseconds]
    omega
  case le_iff =>
    intro asked bound small
    rw [UInt64.lt_iff_toNat_lt, toNat_mostMilliseconds] at small
    rw [UInt64.le_iff_toNat_le, asked.toNat_millisecondsUp_le_iff small]
    rfl
  case monotone =>
    intro shorter longer order
    have numberShorter := shorter.toNat_millisecondsUp
    have numberLonger := longer.toNat_millisecondsUp
    rw [le_iff] at order
    rw [UInt64.le_iff_toNat_le]
    omega
  case enough =>
    intro asked fits
    have number := asked.toNat_millisecondsUp
    rw [within] at fits
    rw [le_iff, ofMilliseconds]
    simp only
    omega
  case close =>
    intro asked
    have number := asked.toNat_millisecondsUp
    rw [ofMilliseconds]
    simp only
    omega

end Duration

namespace ConsumerConfig

open Duration (millisecondsUp)

theorem validate_eq_invalidTimeout_iff {config : ConsumerConfig}
    (unlimited : config.maxConcurrency ≠ some 0) :
    config.validate = .error .invalidTimeout ↔ config.messageTimeoutMs = some 0 := by
  unfold validate
  rw [if_neg unlimited]
  split <;> simp_all

/-- A timeout and a backoff are rounded up to whole milliseconds and read back as what was kept;
a timeout is refused exactly if none at all was asked for. -/
theorem durations_round_up (config : ConsumerConfig) :
    Duration.RoundsUp millisecondsUp ∧
    ∀ asked : Duration,
      (config.withMessageTimeout asked).messageTimeoutMs = some asked.millisecondsUp ∧
      (config.withMessageTimeout asked).messageTimeout =
        some (Duration.ofMilliseconds asked.millisecondsUp) ∧
      (config.withReconnectBackoff asked).reconnectBackoffMs = asked.millisecondsUp ∧
      (config.withReconnectBackoff asked).reconnectBackoff =
        Duration.ofMilliseconds asked.millisecondsUp ∧
      (config.maxConcurrency ≠ some 0 →
        ((config.withMessageTimeout asked).validate = .error .invalidTimeout ↔
          asked.nanoseconds = 0)) := by
  refine ⟨Duration.roundsUp_millisecondsUp, fun asked => ⟨rfl, rfl, rfl, rfl, ?_⟩⟩
  intro unlimited
  have sameLimit : (config.withMessageTimeout asked).maxConcurrency ≠ some 0 := unlimited
  rw [validate_eq_invalidTimeout_iff sameLimit, ← asked.millisecondsUp_eq_zero_iff]
  exact Option.some_inj

def lateTimeout : Duration := ⟨18446744073709551614000001⟩

theorem durations_round_up_last :
    lateTimeout ≤ Duration.longest ∧ default.maxConcurrency ≠ some 0 ∧
      (default.withMessageTimeout lateTimeout).messageTimeout = some Duration.longest ∧
      (default.withMessageTimeout ⟨0⟩).validate = .error .invalidTimeout := by
  obtain ⟨rounds, settings⟩ := durations_round_up default
  have fits : lateTimeout ≤ Duration.longest := Duration.le_iff.mpr (by decide)
  have unlimited : default.maxConcurrency ≠ some 0 := nofun
  have kept : lateTimeout.millisecondsUp = Duration.mostMilliseconds := by
    have covered : 18446744073709551614000001 ≤ lateTimeout.millisecondsUp.toNat * 1000000 :=
      (rounds.least lateTimeout fits).1
    have bound := lateTimeout.millisecondsUp.toNat_lt
    rw [← UInt64.toNat_inj, Duration.toNat_mostMilliseconds]
    omega
  refine ⟨fits, unlimited, ?_, ((settings ⟨0⟩).2.2.2.2 unlimited).mpr rfl⟩
  rw [(settings lateTimeout).2.1, kept]
  rfl

end ConsumerConfig

end TaskQueue
