/-!
Numbers of double precision. A finite one is held as its exact rational value, so that
nothing is rounded twice and every comparison is exact; the two signed zeros are one value.
-/

namespace ImapDialogue

inductive Number where
  | finite (value : Rat)
  | infinite (negative : Bool)
deriving DecidableEq, Repr

namespace Number

def roundHalfEven (numerator denominator : Nat) : Nat :=
  let floor := numerator / denominator
  let twice := 2 * (numerator % denominator)
  if twice < denominator then floor
  else if denominator < twice then floor + 1
  else floor + floor % 2

/-- The exponent of the highest power of two that does not exceed `numerator / denominator`,
both positive. -/
def binaryOrder (numerator denominator : Nat) : Int :=
  let order : Int := (numerator.log2 : Int) - denominator.log2
  if numerator * Nat.pow 2 (-order).toNat < denominator * Nat.pow 2 order.toNat then order - 1
  else order

/-- The magnitude of double precision nearest to `numerator / denominator`: 53 significant
bits, no bit below 2 to the -1074, and infinite from 2 to the 1024 on. -/
def nearestMagnitude (numerator denominator : Nat) : Option Rat :=
  if numerator = 0 then some 0
  else
    let unit : Int := max (binaryOrder numerator denominator - 52) (-1074)
    let up := Nat.pow 2 (-unit).toNat
    let down := Nat.pow 2 unit.toNat
    let significand := roundHalfEven (numerator * up) (denominator * down)
    let value := mkRat (significand * down : Nat) up
    if value < (Nat.pow 2 1024 : Nat) then some value else none

def ofRat (value : Rat) : Number :=
  match nearestMagnitude value.num.natAbs value.den with
  | some magnitude => .finite (if value < 0 then -magnitude else magnitude)
  | none => .infinite (value < 0)

/-- The number of double precision nearest to a natural number. Below 2 to the 53 it is that
number itself. -/
def ofNat (value : Nat) : Number :=
  match nearestMagnitude value 1 with
  | some magnitude => .finite magnitude
  | none => .infinite false

def positiveInteger? : Number → Option Nat
  | .finite value => if value.den = 1 && 0 < value.num then some value.num.toNat else none
  | .infinite _ => none

end Number

end ImapDialogue
