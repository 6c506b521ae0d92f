import TaskQueue.Text.Bytes

/-!
Hexadecimal digits: one digit, groups of digits, and byte strings written two digits a byte.
-/

namespace TaskQueue.Text

def hexValue? (digit : UInt8) : Option Nat :=
  if byte '0' ≤ digit ∧ digit ≤ byte '9' then some (digit - byte '0').toNat
  else if byte 'a' ≤ digit ∧ digit ≤ byte 'f' then some ((digit - byte 'a').toNat + 10)
  else if byte 'A' ≤ digit ∧ digit ≤ byte 'F' then some ((digit - byte 'A').toNat + 10)
  else none

def hexDigit (value : Nat) : UInt8 :=
  if value < 10 then byte '0' + value.toUInt8 else byte 'a' + (value - 10).toUInt8

def hexPair (value : UInt8) : Bytes := [hexDigit (value.toNat / 16), hexDigit (value.toNat % 16)]

def hexOfBytes (bytes : Bytes) : Bytes := bytes.flatMap hexPair

def bytesOfHex? : Bytes → Option Bytes
  | [] => some []
  | [_] => none
  | high :: low :: rest =>
      match hexValue? high, hexValue? low, bytesOfHex? rest with
      | some upper, some lower, some bytes => some ((upper * 16 + lower).toUInt8 :: bytes)
      | _, _, _ => none

end TaskQueue.Text
