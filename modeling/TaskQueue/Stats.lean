import TaskQueue.Json.Printer
import TaskQueue.Json.Record

/-!
What a consumer has counted. The counts are kept as numbers without a bound and shown modulo
`2 ^ 64`; they are loaded one after another, and others may count between two loads.
-/

namespace TaskQueue

inductive Counter
  | received
  | acked
  | rejected
  | recoveredPanics
  | terminateFailures
  | streamFailures
deriving DecidableEq, Repr

def Counter.all : List Counter :=
  [.received, .acked, .rejected, .recoveredPanics, .terminateFailures, .streamFailures]

structure Counts where
  received : Nat
  acked : Nat
  rejected : Nat
  recoveredPanics : Nat
  terminateFailures : Nat
  streamFailures : Nat
deriving DecidableEq, Repr

namespace Counts

def zero : Counts := ⟨0, 0, 0, 0, 0, 0⟩

def get (counts : Counts) : Counter → Nat
  | .received => counts.received
  | .acked => counts.acked
  | .rejected => counts.rejected
  | .recoveredPanics => counts.recoveredPanics
  | .terminateFailures => counts.terminateFailures
  | .streamFailures => counts.streamFailures

def count (counts : Counts) : Counter → Counts
  | .received => { counts with received := counts.received + 1 }
  | .acked => { counts with acked := counts.acked + 1 }
  | .rejected => { counts with rejected := counts.rejected + 1 }
  | .recoveredPanics => { counts with recoveredPanics := counts.recoveredPanics + 1 }
  | .terminateFailures => { counts with terminateFailures := counts.terminateFailures + 1 }
  | .streamFailures => { counts with streamFailures := counts.streamFailures + 1 }

@[simp] theorem get_count (counts : Counts) (counted counter : Counter) :
    (counts.count counted).get counter =
      counts.get counter + if counted = counter then 1 else 0 := by
  cases counted <;> cases counter <;> rfl

end Counts

structure ConsumerStats where
  received : UInt64
  acked : UInt64
  rejected : UInt64
  recoveredPanics : UInt64
  terminateFailures : UInt64
  streamFailures : UInt64
deriving DecidableEq, Repr

namespace ConsumerStats

def zero : ConsumerStats := ⟨0, 0, 0, 0, 0, 0⟩

/-- The loads of the six counters, each at its own moment. -/
def ofLoads (load : Counter → Nat) : ConsumerStats where
  received := (load .received).toUInt64
  acked := (load .acked).toUInt64
  rejected := (load .rejected).toUInt64
  recoveredPanics := (load .recoveredPanics).toUInt64
  terminateFailures := (load .terminateFailures).toUInt64
  streamFailures := (load .streamFailures).toUInt64

def ofCounts (counts : Counts) : ConsumerStats := ofLoads counts.get

def field (name : String) (set : UInt64 → ConsumerStats → ConsumerStats) :
    Json.Field ConsumerStats where
  name := name
  needed := true
  neededInList := true
  shape := (Json.Shape.natural "u64").map set

def layout : Json.Layout ConsumerStats where
  name := "ConsumerStats"
  fields := [
    field "received" fun value stats => { stats with received := value },
    field "acked" fun value stats => { stats with acked := value },
    field "rejected" fun value stats => { stats with rejected := value },
    field "recovered_panics" fun value stats => { stats with recoveredPanics := value },
    field "terminate_failures" fun value stats => { stats with terminateFailures := value },
    field "stream_failures" fun value stats => { stats with streamFailures := value }]
  blank := zero

def entries (stats : ConsumerStats) : List (String × UInt64) :=
  [("received", stats.received), ("acked", stats.acked), ("rejected", stats.rejected),
    ("recovered_panics", stats.recoveredPanics), ("terminate_failures", stats.terminateFailures),
    ("stream_failures", stats.streamFailures)]

def toJson (stats : ConsumerStats) : Json :=
  .object (stats.entries.map fun entry => (entry.1, .number (.natural entry.2)))

def inspect (stats : ConsumerStats) : String :=
  "ConsumerStats \x7b " ++
    ", ".intercalate (stats.entries.map fun entry => entry.1 ++ ": " ++ toString entry.2.toNat) ++
    " \x7d"

end ConsumerStats

end TaskQueue
