/-!
Alarms on a clock of milliseconds. Time is cut into stretches, and the stretches are wound around a
ring. An alarm of the stretch that is under way rings at its moment. The others hang at the place of
their stretch: the clock goes from occupied place to occupied place, comes to its own place first
and a whole round later, and looks only at the alarms of the place where it has come to. So alarms
that are less than a round ahead ring on time; with one farther away another can ring late.
-/

namespace TaskQueue

structure Alarm (α : Type) where
  owner : α
  moment : Nat
deriving Repr

namespace Alarm

/-- Alarms for a later moment are set for this one. -/
def latest : Nat := UInt64.size - 3

def span : Nat := 0x40000000

def places : Nat := 64

def stretch (moment : Nat) : Nat := min moment latest / span

def distance (now moment : Nat) : Nat :=
  (stretch moment + (places - stretch now % places)) % places

def nextStop (now : Nat) (moments : List Nat) : Option Nat :=
  let parted := moments.partition fun moment => stretch moment == stretch now
  match (parted.1.filter (now < ·)).min? with
  | some moment => some moment
  | none =>
      (parted.2.map (distance now)).min?.map fun distance =>
        (stretch now + if distance = 0 then places else distance) * span

def rings (now moment : Nat) : Bool :=
  decide (moment ≤ now) && stretch moment % places == stretch now % places

variable {α : Type} [BEq α]

def set (alarms : List (Alarm α)) (owner : α) (moments : List Nat) : List (Alarm α) :=
  let kept := alarms.filter fun alarm => alarm.owner != owner || moments.contains alarm.moment
  let known := (kept.filter fun alarm => alarm.owner == owner).map Alarm.moment
  kept ++ (moments.filter fun moment => !known.contains moment).map (Alarm.mk owner)

def woken (alarms : List (Alarm α)) (now : Nat) : List α :=
  ((alarms.filter fun alarm => rings now alarm.moment).map Alarm.owner).eraseDups

end Alarm

end TaskQueue
