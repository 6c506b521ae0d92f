import TaskQueue.Demo
import TaskQueue.Proofs.Lists

/-!
How greetings share the failures that are left. A greeting looks whether one is left and then takes
one, and others may look in between, so that more of them see a failure left than there are. As long
as this does not happen the failures are counted exactly; where it does, more greetings fail than
should, and what is left is below zero and wraps around.
-/

namespace TaskQueue.Demo

inductive Stage
  | absent
  | looking
  | taking
  | taken
  | passing
  | failed
  | passed
deriving DecidableEq, Repr

namespace Stage

def isCall : Stage → Bool
  | .absent => false
  | _ => true

def isLooking : Stage → Bool
  | .looking => true
  | _ => false

def isTaking : Stage → Bool
  | .taking => true
  | _ => false

def hasTaken : Stage → Bool
  | .taken | .failed => true
  | _ => false

def hasDrawn : Stage → Bool
  | .taking | .taken | .failed => true
  | _ => false

def hasPassed : Stage → Bool
  | .passing | .passed => true
  | _ => false

def hasFailed : Stage → Bool
  | .failed => true
  | _ => false

def isOver : Stage → Bool
  | .failed | .passed => true
  | _ => false

/-- The steps of a task, with the failures left before and after each. -/
inductive Move : Remaining → Stage → Stage → Remaining → Prop
  | rest {left : Remaining} {stage : Stage} : Move left stage stage left
  | call {left : Remaining} : Move left .absent .looking left
  | draw {left : Remaining} : 0 < left → Move left .looking .taking left
  | pass {left : Remaining} : ¬0 < left → Move left .looking .passing left
  | take {left : Remaining} : Move left .taking .taken (left - 1)
  | fail {left : Remaining} : Move left .taken .failed left
  | succeed {left : Remaining} : Move left .passing .passed left

inductive Shift (left : Remaining) (stages : List Stage) : List Stage → Remaining → Prop
  | move {index : Nat} {stage next : Stage} {later : Remaining} : stages[index]? = some stage →
      Move left stage next later → Shift left stages (stages.modify index fun _ => next) later
  | join (number : Nat) : Shift left stages (stages ++ List.replicate number .absent) left

variable {stages others : List Stage} {count left later : Remaining}

theorem countP_drawn (stages : List Stage) :
    stages.countP hasDrawn = stages.countP isTaking + stages.countP hasTaken := by
  induction stages with
  | nil => rfl
  | cons stage rest ih =>
      simp only [List.countP_cons, ih]
      cases stage <;> simp [hasDrawn, isTaking, hasTaken] <;> omega

theorem countP_calls (stages : List Stage) :
    stages.countP isCall =
      stages.countP isLooking + stages.countP hasDrawn + stages.countP hasPassed := by
  induction stages with
  | nil => rfl
  | cons stage rest ih =>
      simp only [List.countP_cons, ih]
      cases stage <;> simp [isCall, isLooking, hasDrawn, hasPassed] <;> omega

theorem countP_join (has : Stage → Bool) (silent : has absent = false) (number : Nat) :
    (stages ++ List.replicate number absent).countP has = stages.countP has := by
  simp [List.countP_replicate, silent]

/-- What is left and what was taken are together what there was, up to the size of the counter, and
nobody has seen none left before as much was taken. -/
structure Sound (count left : Remaining) (stages : List Stage) : Prop where
  whole : (left.toNat + stages.countP hasTaken) % UInt32.size = count.toNat
  spent : 0 < stages.countP hasPassed → count.toNat ≤ stages.countP hasTaken

theorem Sound.shift (sound : Sound count left stages) (shift : Shift left stages others later) :
    Sound count later others := by
  obtain ⟨whole, spent⟩ := sound
  cases shift with
  | join number =>
      rw [← countP_join hasTaken rfl number] at whole spent
      rw [← countP_join hasPassed rfl number] at spent
      exact ⟨whole, spent⟩
  | move found move =>
      rename_i index stage next
      have taken := countP_modify (fun _ => next) hasTaken found
      have passed := countP_modify (fun _ => next) hasPassed found
      cases move with
      | pass nothing =>
          have zero : left.toNat = 0 := by simpa [UInt32.lt_iff_toNat_lt] using nothing
          have reached : count.toNat ≤ stages.countP hasTaken := by
            rw [← whole, zero, Nat.zero_add]
            exact Nat.mod_le _ _
          simp only [hasTaken, Bool.toNat_false, Nat.add_zero] at taken
          rw [← taken] at whole reached
          exact ⟨whole, fun _ => reached⟩
      | take =>
          simp only [hasTaken, hasPassed, Bool.toNat_false, Bool.toNat_true,
            Nat.add_zero] at taken passed
          rw [← passed] at spent
          refine ⟨?_, fun some => Nat.le_trans (spent some) (taken ▸ Nat.le_succ _)⟩
          rw [taken, UInt32.toNat_sub, ← whole]
          simp only [UInt32.size, UInt32.toNat_ofNat]
          omega
      | _ =>
          simp only [hasTaken, hasPassed, Nat.add_right_cancel_iff, Bool.toNat_false,
            Nat.add_zero] at taken passed
          rw [← taken] at whole spent
          rw [← passed] at spent
          exact ⟨whole, spent⟩

theorem Shift.drawn_le (shift : Shift left stages others later) :
    stages.countP hasDrawn ≤ others.countP hasDrawn := by
  cases shift with
  | join number => exact Nat.le_of_eq (countP_join hasDrawn rfl number).symm
  | move found move =>
      rename_i index stage next
      have drawn := countP_modify (fun _ => next) hasDrawn found
      cases move <;> simp only [hasDrawn, Bool.toNat_false, Bool.toNat_true] at drawn <;> omega

theorem Shift.taken_le (shift : Shift left stages others later) :
    others.countP hasTaken ≤ stages.countP hasDrawn := by
  have drawn := countP_drawn stages
  cases shift with
  | join number =>
      rw [countP_join hasTaken rfl number]
      omega
  | move found move =>
      rename_i index stage next
      have taking := countP_modify (fun _ => next) isTaking found
      have taken := countP_modify (fun _ => next) hasTaken found
      cases move <;>
        simp only [isTaking, hasTaken, Bool.toNat_false, Bool.toNat_true] at taking taken <;> omega

theorem Sound.left_eq (sound : Sound count left stages)
    (few : stages.countP hasTaken ≤ count.toNat) :
    left.toNat + stages.countP hasTaken = count.toNat := by
  have whole := sound.whole
  have bound := count.toNat_lt
  have leftBound := left.toNat_lt
  simp only [UInt32.size] at whole
  omega

theorem Sound.overdrawn_iff (sound : Sound count left stages)
    (few : stages.countP hasTaken ≤ count.toNat) :
    left.toNat < stages.countP isTaking ↔ count.toNat < stages.countP hasDrawn := by
  have whole := sound.left_eq few
  have drawn := countP_drawn stages
  omega

theorem Sound.drawn_iff (sound : Sound count left stages)
    (shift : Shift left stages others later) :
    stages.countP hasDrawn ≤ count.toNat ∧ ¬later.toNat < others.countP isTaking ↔
      others.countP hasDrawn ≤ count.toNat := by
  have grows := shift.drawn_le
  have taken := shift.taken_le
  have shifted := sound.shift shift
  constructor
  · rintro ⟨few, within⟩
    exact Nat.le_of_not_lt fun many => within ((shifted.overdrawn_iff (by omega)).mpr many)
  · intro few
    refine ⟨by omega, fun overdrawn => ?_⟩
    have many := (shifted.overdrawn_iff (by omega)).mp overdrawn
    omega

theorem Sound.drawn_le_of_single (sound : Sound count left stages)
    (shift : Shift left stages others later) (few : stages.countP hasDrawn ≤ count.toNat)
    (single : others.countP isTaking ≤ 1) : others.countP hasDrawn ≤ count.toNat := by
  have parts := countP_drawn stages
  cases shift with
  | join number => rwa [countP_join hasDrawn rfl number]
  | move found move =>
      rename_i index stage next
      have drawn := countP_modify (fun _ => next) hasDrawn found
      have taking := countP_modify (fun _ => next) isTaking found
      cases move with
      | draw positive =>
          -- nobody else is about to take one, so what was drawn has been taken
          have whole := sound.left_eq (by omega)
          have some : 0 < left.toNat := by simpa [UInt32.lt_iff_toNat_lt] using positive
          simp only [hasDrawn, isTaking, Bool.toNat_false, Bool.toNat_true] at drawn taking
          omega
      | _ =>
          simp only [hasDrawn, Bool.toNat_false, Bool.toNat_true] at drawn
          omega

section Over

variable (ended : ∀ stage ∈ stages, stage.isCall = true → stage.isOver = true)

include ended

theorem countP_failed : stages.countP hasFailed = stages.countP hasDrawn := by
  apply List.countP_congr
  intro stage taken
  have late := ended stage taken
  cases stage <;> simp_all [hasFailed, hasDrawn, isCall, isOver]

theorem countP_taken : stages.countP hasTaken = stages.countP hasFailed := by
  apply List.countP_congr
  intro stage taken
  have late := ended stage taken
  cases stage <;> simp_all [hasFailed, hasTaken, isCall, isOver]

theorem countP_passed :
    stages.countP isCall = stages.countP hasFailed + stages.countP hasPassed := by
  have nobody : stages.countP isLooking = 0 := by
    apply List.countP_eq_zero.mpr
    intro stage taken
    have late := ended stage taken
    cases stage <;> simp_all [isLooking, isCall, isOver]
  rw [countP_calls, nobody, Nat.zero_add, countP_failed ended]

theorem Sound.min_le_failed (sound : Sound count left stages) :
    min count.toNat (stages.countP isCall) ≤ stages.countP hasFailed := by
  have calls := countP_passed ended
  have spent := sound.spent
  rw [countP_taken ended] at spent
  omega

theorem Sound.failed_eq_iff (sound : Sound count left stages) :
    stages.countP hasFailed = min count.toNat (stages.countP isCall) ↔
      stages.countP hasDrawn ≤ count.toNat := by
  have calls := countP_passed ended
  have least := sound.min_le_failed ended
  rw [← countP_failed ended]
  omega

theorem Sound.left_of_over (sound : Sound count left stages) :
    left = count - UInt32.ofNat (stages.countP hasFailed) := by
  have whole := sound.whole
  have leftBound := left.toNat_lt
  rw [countP_taken ended] at whole
  apply UInt32.toNat_inj.mp
  rw [UInt32.toNat_sub, UInt32.toNat_ofNat', ← whole]
  simp only [UInt32.size]
  omega

/-- Unless the counter has gone all the way round, it shows whether too many calls have failed. -/
theorem Sound.left_le_iff (sound : Sound count left stages)
    (few : stages.countP hasFailed < UInt32.size) :
    left ≤ count ↔ stages.countP hasDrawn ≤ count.toNat := by
  have whole := sound.whole
  have leftBound := left.toNat_lt
  rw [countP_taken ended] at whole
  rw [UInt32.le_iff_toNat_le, ← countP_failed ended]
  simp only [UInt32.size] at whole few
  omega

end Over

end Stage

end TaskQueue.Demo
