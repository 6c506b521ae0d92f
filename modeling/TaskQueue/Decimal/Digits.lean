/-!
Natural numbers as lists of decimal digits, most significant first, and the reading of words of 64
bits from characters. Main statement: the digits of a number have that number as their value.
-/

namespace TaskQueue.Decimal

def digits (number : Nat) : List Nat :=
  if number < 10 then [number] else digits (number / 10) ++ [number % 10]
termination_by number

def value (digits : List Nat) : Nat :=
  digits.foldl (fun total digit => total * 10 + digit) 0

theorem value_append (front : List Nat) (last : Nat) :
    value (front ++ [last]) = value front * 10 + last := by
  simp [value]

theorem value_digits (number : Nat) : value (digits number) = number := by
  fun_induction digits number with
  | case1 number small => simp [value]
  | case2 number large ih =>
      rw [value_append, ih]
      omega

theorem digits_lt (number : Nat) : ∀ digit ∈ digits number, digit < 10 := by
  fun_induction digits number with
  | case1 number small => simpa using small
  | case2 number large ih =>
      intro digit member
      rcases List.mem_append.mp member with inside | last
      · exact ih digit inside
      · rw [List.mem_singleton] at last
        omega

theorem digits_ne_nil (number : Nat) : digits number ≠ [] := by
  unfold digits
  split <;> simp

def digit? (character : Char) : Option Nat :=
  if character.isDigit then some (character.toNat - 48) else none

def wordOfDigits? (characters : List Char) : Option UInt64 :=
  match characters.mapM digit? with
  | none => none
  | some [] => none
  | some digits => if value digits < UInt64.size then some (value digits).toUInt64 else none

def word? : List Char → Option UInt64
  | '+' :: rest => wordOfDigits? rest
  | characters => wordOfDigits? characters

end TaskQueue.Decimal
