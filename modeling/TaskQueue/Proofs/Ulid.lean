import Mathlib.Algebra.Group.Int.Defs
import Mathlib.Algebra.Group.Nat.Defs
import TaskQueue.Ulid

/-!
Identities sort by time. Texts of one length are in the order of the numbers whose digits they are,
and the time is in front of the random half, so that the time alone decides between two instants.
-/

namespace TaskQueue.Ulid

def digitValue? (character : Char) : Option Nat := alphabet.idxOf? character

def value? (characters : List Char) : Option Nat :=
  characters.foldlM (fun total character => (digitValue? character).map (total * 32 + ·)) 0

theorem digitValue?_digit (number : Nat) : digitValue? (digit number) = some (number % 32) := by
  have each : ∀ value < 32, digitValue? (alphabet.getD value '0') = some value := by decide
  exact each (number % 32) (Nat.mod_lt number (by decide))

@[simp] theorem length_digits (count number : Nat) : (digits count number).length = count := by
  induction count generalizing number with
  | zero => rfl
  | succ count ih => simp [digits, ih]

theorem value?_digits (count number : Nat) :
    value? (digits count number) = some (number % 32 ^ count) := by
  induction count generalizing number with
  | zero => simp [digits, value?, Nat.mod_one]
  | succ count ih =>
      have before := ih (number / 32)
      unfold value? at before ⊢
      rw [digits, List.foldlM_append, before]
      have step : number / 32 % 32 ^ count * 32 + number % 32 = number % 32 ^ (count + 1) := by
        rw [Nat.pow_succ, Nat.mul_comm (32 ^ count) 32, Nat.mod_mul]
        omega
      simp [digitValue?_digit, step]

theorem digits_add (front back number : Nat) :
    digits (front + back) number = digits front (number / 32 ^ back) ++ digits back number := by
  induction back generalizing number with
  | zero => simp [digits]
  | succ back ih =>
      have shorter : number / 32 / 32 ^ back = number / 32 ^ (back + 1) := by
        rw [Nat.div_div_eq_div_mul, Nat.pow_succ, Nat.mul_comm]
      rw [← Nat.add_assoc, digits, ih, shorter, digits, List.append_assoc]

theorem digit_lt {left right : Nat} (before : left % 32 < right % 32) :
    digit left < digit right := by
  have each : ∀ larger < 32, ∀ smaller < larger,
      alphabet.getD smaller '0' < alphabet.getD larger '0' := by decide
  exact each (right % 32) (Nat.mod_lt right (by decide)) (left % 32) before

/-- Of two texts of one length the order is decided before anything that is added to them. -/
theorem append_lt_append {left right : List Char} (same : left.length = right.length)
    (before : left < right) (leftRest rightRest : List Char) :
    left ++ leftRest < right ++ rightRest := by
  induction before with
  | nil => simp at same
  | rel first => exact .rel first
  | cons _ ih => exact .cons (ih (by simpa using same))

theorem digits_lt {count left right : Nat} (fits : right < 32 ^ count) (before : left < right) :
    digits count left < digits count right := by
  induction count generalizing left right with
  | zero => simp at fits; omega
  | succ count ih =>
      rw [digits, digits]
      by_cases sameFront : left / 32 = right / 32
      · rw [sameFront]
        apply List.append_left_lt
        apply List.Lex.rel
        apply digit_lt
        omega
      · apply append_lt_append
        · rw [length_digits, length_digits]
        · apply ih
          · rw [Nat.pow_succ] at fits
            omega
          · omega

/-- The part of an instant that an identity has room for. -/
def clipped (milliseconds : Int64) : Nat := (milliseconds.toInt % 2 ^ 48).toNat

theorem clipped_lt (milliseconds : Int64) : clipped milliseconds < 2 ^ 48 := by
  unfold clipped
  omega

theorem toUInt64_mod (milliseconds : Int64) :
    milliseconds.toUInt64.toNat % timeSize = clipped milliseconds := by
  have wrapped : milliseconds.toInt = (milliseconds.toUInt64.toNat : Int).bmod (2 ^ 64) :=
    BitVec.toInt_eq_toNat_bmod milliseconds.toBitVec
  have small := milliseconds.toUInt64.toNat_lt
  unfold clipped timeSize
  rw [wrapped, Int.bmod_def]
  split <;> omega

theorem number_eq (milliseconds : Int64) (random : Nat) :
    number milliseconds random = clipped milliseconds * 2 ^ 80 + random % 2 ^ 80 := by
  rw [number, toUInt64_mod]
  rfl

theorem number_lt (milliseconds : Int64) (random : Nat) :
    number milliseconds random < 2 ^ 128 := by
  have time := clipped_lt milliseconds
  rw [number_eq]
  omega

@[simp] theorem toList_generate (milliseconds : Int64) (random : Nat) :
    (generate milliseconds random).text.toList = digits 26 (number milliseconds random) :=
  String.toList_ofList

theorem take_digits (milliseconds : Int64) (random : Nat) :
    (digits 26 (number milliseconds random)).take 10 = digits 10 (clipped milliseconds) := by
  have front : number milliseconds random / 32 ^ 16 = clipped milliseconds := by
    rw [number_eq]
    omega
  rw [digits_add 10 16, front]
  exact List.take_left' (length_digits 10 _)

/-- An identity has 26 digits, which stand for the time and the random half. The first ten are those
of the milliseconds modulo `2 ^ 48`, which can be read back from them. An identity of an earlier
instant comes before one of a later instant. -/
theorem generate_sortable :
    (∀ milliseconds random,
      (generate milliseconds random).text.toList.length = 26 ∧
      value? (generate milliseconds random).text.toList =
        some (clipped milliseconds * 2 ^ 80 + random % 2 ^ 80) ∧
      timePart (generate milliseconds random) =
        String.ofList (digits 10 (clipped milliseconds)) ∧
      value? (timePart (generate milliseconds random)).toList = some (clipped milliseconds)) ∧
    ∀ earlier later : Int64, 0 ≤ earlier.toInt → earlier.toInt < later.toInt →
      later.toInt < 2 ^ 48 → ∀ random other,
        (generate earlier random).lt (generate later other) := by
  constructor
  · intro milliseconds random
    have whole := number_lt milliseconds random
    have time := clipped_lt milliseconds
    have front : timePart (generate milliseconds random) =
        String.ofList (digits 10 (clipped milliseconds)) := by
      rw [timePart, toList_generate, take_digits]
    refine ⟨?_, ?_, front, ?_⟩
    · rw [toList_generate, length_digits]
    · rw [toList_generate, value?_digits, Nat.mod_eq_of_lt (by omega), number_eq]
    · rw [front, String.toList_ofList, value?_digits, Nat.mod_eq_of_lt (by omega)]
  · intro earlier later notBefore before small random other
    have apart : clipped earlier < clipped later := by
      unfold clipped
      omega
    have fits := number_lt later other
    apply String.lt_iff.mpr
    rw [toList_generate, toList_generate]
    apply digits_lt
    · omega
    · rw [number_eq, number_eq]
      omega

/-- One millisecond decides, however large the random half was before and however small it is
now. -/
theorem generate_sortable_next :
    0 ≤ (1704110400000 : Int64).toInt ∧
      (1704110400000 : Int64).toInt < (1704110400001 : Int64).toInt ∧
      (1704110400001 : Int64).toInt < 2 ^ 48 ∧
      (generate 1704110400000 (2 ^ 80 - 1)).lt (generate 1704110400001 0) :=
  ⟨by decide, by decide, by decide,
    generate_sortable.2 _ _ (by decide) (by decide) (by decide) _ _⟩

end TaskQueue.Ulid
