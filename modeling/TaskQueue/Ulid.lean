import TaskQueue.Message

/-!
Identities that sort by time: 128 bits, the upper 48 of them the milliseconds of a clock, written as
26 digits of base 32.
-/

namespace TaskQueue.Ulid

def alphabet : List Char := "0123456789ABCDEFGHJKMNPQRSTVWXYZ".toList

def digit (value : Nat) : Char := alphabet.getD (value % 32) '0'

def digits : (count : Nat) → (number : Nat) → List Char
  | 0, _ => []
  | count + 1, number => digits count (number / 32) ++ [digit number]

def text (number : Nat) : String := String.ofList (digits 26 number)

def timeSize : Nat := 0x1000000000000

def randomSize : Nat := 0x100000000000000000000

def number (milliseconds : Int64) (random : Nat) : Nat :=
  (milliseconds.toUInt64.toNat % timeSize) * randomSize + random % randomSize

def generate (milliseconds : Int64) (random : Nat) : MessageId :=
  ⟨text (number milliseconds random)⟩

def timePart (id : MessageId) : String := String.ofList (id.text.toList.take 10)

def isInstant (milliseconds : Int64) : Bool :=
  -8334601228800000 ≤ milliseconds && milliseconds ≤ 8210266876799999

end TaskQueue.Ulid
