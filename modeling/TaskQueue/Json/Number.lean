import TaskQueue.Json.Value
import TaskQueue.Text.Bytes

/-!
Numbers as JSON writes them, and the numbers that numerals stand for. Integers beyond 64 bits and
numerals with a fraction or an exponent are doubles. A double is computed from the first digits of
its numeral, as many as fit in 64 bits, and one power of ten, with a rounding at each step; it need
not be the double nearest to the numeral. It is written with the fewest digits that stand for it.
-/

namespace TaskQueue

/-- How doubles are written: plainly from `10 ^ plainFrom` up to but not including
`10 ^ plainBelow`, otherwise with an exponent, which carries its sign in both directions. -/
structure FloatLayout where
  plainFrom : Int
  plainBelow : Int

def Json.floatLayout : FloatLayout := ⟨-5, 16⟩

def digitCharacter (digit : Nat) : Char := Char.ofNat (48 + digit)

def decimalCharacters (number : Nat) : List Char := (Decimal.digits number).map digitCharacter

def FloatLayout.write (layout : FloatLayout) (number : Decimal.Scientific) : List Char :=
  let digits := decimalCharacters number.digits
  let point : Int := digits.length + number.place
  let exponent := point - 1
  if layout.plainFrom ≤ exponent ∧ exponent < layout.plainBelow then
    if 0 ≤ number.place then digits ++ List.replicate number.place.toNat '0' ++ ['.', '0']
    else if 0 < point then digits.take point.toNat ++ '.' :: digits.drop point.toNat
    else '0' :: '.' :: List.replicate (-point).toNat '0' ++ digits
  else
    let fraction := if digits.length = 1 then [] else '.' :: digits.drop 1
    let sign := if exponent < 0 then '-' else '+'
    digits.take 1 ++ fraction ++ 'e' :: sign :: decimalCharacters exponent.natAbs

namespace Number

def characters : Number → List Char
  | .natural value => decimalCharacters value.toNat
  | .negative predecessor => '-' :: decimalCharacters (predecessor.val + 1)
  | .float bits =>
      let magnitude := bits &&& 0x7FFFFFFFFFFFFFFF
      let sign := if magnitude = bits then [] else ['-']
      sign ++
        if magnitude = 0 then ['0', '.', '0']
        else Json.floatLayout.write (Decimal.Dyadic.ofBits magnitude).shortest

def text (number : Number) : String := String.ofList number.characters

end Number

structure Numeral where
  negative : Bool
  whole : List Nat
  fraction : List Nat
  exponent : Option (Bool × List Nat)
deriving DecidableEq, Repr

namespace Numeral

/-- Takes digits into a significand below `2 ^ 64` until one does not fit; returns the digits that
were not taken. -/
def gather : (significand : Nat) → (digits : List Nat) → Nat × List Nat
  | significand, [] => (significand, [])
  | significand, digit :: rest =>
      if significand * 10 + digit < UInt64.size then gather (significand * 10 + digit) rest
      else (significand, digit :: rest)

/-- The value of exponent digits if it stays below `2 ^ 31`, else how many digits are left after
the one that leads beyond. -/
def exponentValue : (value : Nat) → (digits : List Nat) → Except Nat Nat
  | value, [] => .ok value
  | value, digit :: rest =>
      if value * 10 + digit < 0x80000000 then exponentValue (value * 10 + digit) rest
      else .error rest.length

def powerOfTen (exponent : Nat) : Float := Float.ofScientific 1 false exponent

/-- `magnitude · 10 ^ exponent` by one multiplication or division by a power of ten that is a
double, after as many divisions by `10 ^ 308` as that needs; `none` beyond the doubles. -/
def scale (magnitude : Float) (exponent : Int) : Option Float :=
  if 308 < exponent then
    if magnitude == 0 then some magnitude else none
  else if exponent < -308 then
    if magnitude == 0 then some magnitude else scale (magnitude / powerOfTen 308) (exponent + 308)
  else if 0 ≤ exponent then
    let scaled := magnitude * powerOfTen exponent.toNat
    if scaled.isInf then none else some scaled
  else some (magnitude / powerOfTen (-exponent).toNat)
termination_by (-exponent).toNat

def double (negative : Bool) (magnitude : Float) : Number :=
  .float (if negative then (-magnitude).toBits else magnitude.toBits)

def scaled (negative : Bool) (significand : Nat) (exponent : Int) : Except Nat Number :=
  match scale significand.toUInt64.toFloat exponent with
  | some magnitude => .ok (double negative magnitude)
  | none => .error 0

/-- The integer of a significand. A negative zero and a negative integer beyond 64 bits are
doubles. -/
def integer (negative : Bool) (significand : Nat) : Number :=
  if negative then
    if fits : 0 < significand ∧ significand ≤ 0x8000000000000000 then
      .negative ⟨significand - 1, by omega⟩
    else double true significand.toUInt64.toFloat
  else .natural significand.toUInt64

def clampExponent (exponent : Int) : Int := max (-0x80000000) (min 0x7FFFFFFF exponent)

def value (numeral : Numeral) : Except Nat Number :=
  let whole := gather 0 numeral.whole
  let all := gather whole.1 numeral.fraction
  let used := numeral.fraction.length - all.2.length
  let shift : Int := (whole.2.length : Int) - used
  match numeral.exponent with
  | none =>
      if numeral.fraction.isEmpty && whole.2.isEmpty then .ok (integer numeral.negative whole.1)
      else scaled numeral.negative all.1 shift
  | some (downward, digits) =>
      match exponentValue 0 digits with
      | .error left =>
          if all.1 ≠ 0 && !downward then .error left else .ok (double numeral.negative 0)
      | .ok exponent =>
          scaled numeral.negative all.1
            (clampExponent (if downward then shift - exponent else shift + exponent))

end Numeral

end TaskQueue
