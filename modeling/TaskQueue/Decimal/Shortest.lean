import TaskQueue.Decimal.Digits

/-!
The shortest decimal that reads back as a given double. A finite double is `mantissa · 2 ^ scale`,
and the reals that round to it form an interval around it. The grids of multiples of `10 ^ place`
are searched from coarse to fine; the first that has a point in the interval gives the digits, the
nearer point if there are two, and the even one if both are equally near.
-/

namespace TaskQueue.Decimal

structure Dyadic where
  mantissa : Nat
  scale : Int
deriving DecidableEq, Repr

structure Scientific where
  digits : Nat
  place : Int
deriving DecidableEq, Repr

def Dyadic.ofBits (bits : UInt64) : Dyadic :=
  let fraction := (bits &&& 0xFFFFFFFFFFFFF).toNat
  let exponent := ((bits >>> 52) &&& 0x7FF).toNat
  if exponent = 0 then ⟨fraction, -1074⟩ else ⟨fraction + 0x10000000000000, (exponent : Int) - 1075⟩

def fraction (number : Nat) (binary decimal : Int) : Nat × Nat :=
  (number * Nat.pow 2 binary.toNat * Nat.pow 10 decimal.toNat,
    Nat.pow 2 (-binary).toNat * Nat.pow 10 (-decimal).toNat)

/-- The interval of reals that round to a double, in quarters of its last mantissa step: below a
power of two the doubles lie twice as close. The ends belong to it iff the mantissa is even. -/
def Dyadic.lower (number : Dyadic) : Nat :=
  if number.mantissa = 0x10000000000000 ∧ -1074 < number.scale then 4 * number.mantissa - 1
  else 4 * number.mantissa - 2

def Dyadic.upper (number : Dyadic) : Nat := 4 * number.mantissa + 2

def Dyadic.admits (number : Dyadic) (place : Int) (point : Nat) : Bool :=
  let low := fraction number.lower (number.scale - 2) (-place)
  let high := fraction number.upper (number.scale - 2) (-place)
  if number.mantissa % 2 = 0 then low.1 ≤ point * low.2 && point * high.2 ≤ high.1
  else low.1 < point * low.2 && point * high.2 < high.1

def Dyadic.onGrid? (number : Dyadic) (place : Int) : Option Nat :=
  let exact := fraction number.mantissa number.scale (-place)
  let below := exact.1 / exact.2
  let above := below + 1
  let roundsDown := number.admits place below && below != 0
  if roundsDown && number.admits place above then
    let toBelow := exact.1 - below * exact.2
    let toAbove := above * exact.2 - exact.1
    if toBelow < toAbove then some below
    else if toAbove < toBelow then some above
    else if below % 2 = 0 then some below else some above
  else if roundsDown then some below
  else if number.admits place above then some above
  else none

def Dyadic.search (number : Dyadic) : (grids : Nat) → (place : Int) → Option Scientific
  | 0, _ => none
  | grids + 1, place =>
      match number.onGrid? place with
      | some point => some ⟨point, place⟩
      | none => number.search grids (place - 1)

def Dyadic.magnitude (number : Dyadic) : Int :=
  ((number.mantissa.log2 : Int) + number.scale + 1) * 30103 / 100000 + 2

/-- The shortest decimal of a non-zero double. Seventeen digits always suffice, so the search ends
within its grids. -/
def Dyadic.shortest (number : Dyadic) : Scientific :=
  (number.search 24 number.magnitude).getD ⟨0, 0⟩

end TaskQueue.Decimal
