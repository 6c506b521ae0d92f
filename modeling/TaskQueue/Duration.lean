/-!
Lengths of time in whole nanoseconds, their text in the largest unit that does not exceed them, and
their rounding up to whole milliseconds of 64 bits.
-/

namespace TaskQueue

structure Duration where
  nanoseconds : Nat
deriving DecidableEq, Repr

namespace Duration

def ofSeconds (seconds nanoseconds : Nat) : Duration := ⟨seconds * 1000000000 + nanoseconds⟩

def ofSeconds? (seconds nanoseconds : Nat) : Option Duration :=
  if seconds + nanoseconds / 1000000000 < UInt64.size then some (ofSeconds seconds nanoseconds)
  else none

def ofMilliseconds (milliseconds : UInt64) : Duration := ⟨milliseconds.toNat * 1000000⟩

def seconds (duration : Duration) : Nat := duration.nanoseconds / 1000000000

def subsecond (duration : Duration) : Nat := duration.nanoseconds % 1000000000

def fractionText : (places part : Nat) → String
  | 0, _ => ""
  | places + 1, part =>
      if part % 10 = 0 then fractionText places (part / 10)
      else
        let digits := toString part
        "." ++ String.ofList (List.replicate (places + 1 - digits.length) '0') ++ digits

def inUnit (duration : Duration) (places : Nat) (unit : String) : String :=
  toString (duration.nanoseconds / Nat.pow 10 places) ++
    fractionText places (duration.nanoseconds % Nat.pow 10 places) ++ unit

def text (duration : Duration) : String :=
  if 1000000000 ≤ duration.nanoseconds then duration.inUnit 9 "s"
  else if 1000000 ≤ duration.nanoseconds then duration.inUnit 6 "ms"
  else if 1000 ≤ duration.nanoseconds then duration.inUnit 3 "µs"
  else duration.inUnit 0 "ns"

/-- The least whole number of milliseconds that is not shorter, or the greatest of 64 bits. -/
def millisecondsUp (duration : Duration) : UInt64 :=
  (min ((duration.nanoseconds + 999999) / 1000000) (UInt64.size - 1)).toUInt64

end Duration

end TaskQueue
