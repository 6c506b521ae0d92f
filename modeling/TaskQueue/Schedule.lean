import TaskQueue.Alarm

/-!
Running a machine with many actors on one thread. Actors that can go on stand in a queue; the first
goes on until it cannot or has done enough, and those that it lets go on join the queue. An actor
that gives way joins the queue again when it is empty, or after a number of turns, the last one
first. Time stands still until nobody can go on; then the alarms of one moment wake their owners in
the order in which they were set.
-/

namespace TaskQueue

structure Machine (σ α : Type) where
  step : σ → α → Option σ
  yields : σ → α → Bool
  /-- How much of what it may do in a turn the next step of an actor takes. -/
  cost : σ → α → Nat
  born : σ → σ → List α
  isOver : σ → α → Bool
  now : σ → Nat
  timers : σ → α → List Nat
  tick : σ → Nat → σ
  /-- The state as it would be at another moment. -/
  dated : σ → Nat → σ

structure Schedule (σ α : Type) where
  state : σ
  ready : List α
  /-- The actors that cannot go on, in the order in which they stopped. -/
  parked : List α
  /-- The actors that have given way, the last first. -/
  deferred : List α
  alarms : List (Alarm α)
  /-- For how long time has passed beyond the moments that were asked for. -/
  excess : Nat

namespace Schedule

variable {σ α : Type}

def ofState (state : σ) : Schedule σ α := ⟨state, [], [], [], [], 0⟩

def elapsed (machine : Machine σ α) (schedule : Schedule σ α) : Nat :=
  machine.now schedule.state - schedule.excess

def moments (schedule : Schedule σ α) : List Nat := schedule.alarms.map Alarm.moment

variable [BEq α]

/-- Whether an actor can go on. One whose alarm should have rung before now has not noticed that it
is so late. -/
def canGoOn (machine : Machine σ α) (late : List (Alarm α)) (state : σ) (actor : α) : Bool :=
  match ((late.filter fun alarm => alarm.owner == actor).map Alarm.moment).min? with
  | some moment => (machine.step (machine.dated state (moment - 1)) actor).isSome
  | none => (machine.step state actor).isSome

def advance (machine : Machine σ α) (schedule : Schedule σ α) (state : σ) : Schedule σ α :=
  let late := schedule.alarms.filter fun alarm => decide (alarm.moment ≤ machine.now state)
  let parted := schedule.parked.partition (canGoOn machine late state)
  { schedule with
    state
    ready := schedule.ready ++ parted.1 ++ machine.born schedule.state state
    parked := parted.2 }

def setAlarms (machine : Machine σ α) (schedule : Schedule σ α) (actor : α) : Schedule σ α :=
  { schedule with
    alarms := Alarm.set schedule.alarms actor (machine.timers schedule.state actor) }

def giveWay (machine : Machine σ α) (schedule : Schedule σ α) (actor : α) : Schedule σ α :=
  let stopped := schedule.setAlarms machine actor
  { stopped with deferred := actor :: stopped.deferred }

def allowance : Nat := 128

/-- Lets one actor go on, for at most `limit` steps, `left` of its allowance being left. -/
def turn (machine : Machine σ α) (actor : α) :
    (limit left : Nat) → Schedule σ α → Schedule σ α
  | 0, _, schedule => { schedule with ready := schedule.ready ++ [actor] }
  | limit + 1, left, schedule =>
      let cost := machine.cost schedule.state actor
      if left < cost then schedule.giveWay machine actor
      else
        match machine.step schedule.state actor with
        | none =>
            let stopped := schedule.setAlarms machine actor
            if machine.isOver stopped.state actor then stopped
            else { stopped with parked := stopped.parked ++ [actor] }
        | some state =>
            let advanced := schedule.advance machine state
            if machine.yields state actor then advanced.giveWay machine actor
            else turn machine actor limit (left - cost) advanced

omit [BEq α] in
def rejoin (schedule : Schedule σ α) : Schedule σ α :=
  { schedule with ready := schedule.ready ++ schedule.deferred, deferred := [] }

/-- After so many turns in a row those who have given way join the queue. -/
def interval : Nat := 61

/-- Lets everybody go on who can, for at most `limit` turns; `left` of them are left in the row. -/
def settle (machine : Machine σ α) (steps : Nat) :
    (limit left : Nat) → Schedule σ α → Schedule σ α
  | 0, _, schedule => schedule
  | limit + 1, 0, schedule => settle machine steps limit interval schedule.rejoin
  | limit + 1, left + 1, schedule =>
      match schedule.ready with
      | actor :: rest =>
          settle machine steps limit left
            (turn machine actor steps allowance { schedule with ready := rest })
      | [] =>
          if schedule.deferred.isEmpty then schedule
          else settle machine steps limit interval schedule.rejoin

def patience : Nat := 1000000

def run (machine : Machine σ α) (schedule : Schedule σ α) : Schedule σ α :=
  settle machine patience patience interval schedule

def setTime (machine : Machine σ α) (schedule : Schedule σ α) (moment : Nat) : Schedule σ α :=
  let woken := Alarm.woken schedule.alarms moment
  let roused : Schedule σ α :=
    { schedule with
      alarms := schedule.alarms.filter fun alarm => !Alarm.rings moment alarm.moment
      parked := woken.filter schedule.parked.contains ++
        schedule.parked.filter fun actor => !woken.contains actor }
  roused.advance machine (machine.tick schedule.state moment)

/-- Lets time go by until an alarm for the moment rings, and everybody go on at each stop. -/
def passUntil (machine : Machine σ α) (moment : Nat) :
    (limit : Nat) → Schedule σ α → Schedule σ α
  | 0, schedule => schedule
  | limit + 1, schedule =>
      let settled := schedule.run machine
      match Alarm.nextStop (machine.now settled.state) (moment :: settled.moments) with
      | some stop =>
          let stopped := settled.setTime machine stop
          if Alarm.rings stop moment then stopped.run machine
          else passUntil machine moment limit stopped
      | none => settled

def passTime (machine : Machine σ α) (schedule : Schedule σ α) (milliseconds : Nat) :
    Schedule σ α :=
  let moment := machine.now schedule.state + milliseconds
  let passed :=
    if milliseconds = 0 then schedule.run machine else passUntil machine moment patience schedule
  { passed with excess := passed.excess + (machine.now passed.state - moment) }

def runUntil (machine : Machine σ α) (aim : σ → Bool) :
    (limit : Nat) → Schedule σ α → Schedule σ α
  | 0, schedule => schedule
  | limit + 1, schedule =>
      let settled := schedule.run machine
      if aim settled.state then settled
      else
        match Alarm.nextStop (machine.now settled.state) settled.moments with
        | some stop => runUntil machine aim limit (settled.setTime machine stop)
        | none => settled

end Schedule

end TaskQueue
