import ImapDialogue.Number.Basic

/-!
Decimal text of a number: the fewest digits that read back as the same number, and among
those the digits nearest to it. Digits stand positionally while the point falls within
21 places behind the first digit or 6 in front of it, and in exponent form otherwise.
-/

namespace ImapDialogue.Number

/-- Digits and the place of the point: `digits · 10 ^ (point - number of digits)`. -/
structure Decimal where
  digits : Nat
  point : Int
deriving DecidableEq, Repr

def scaled (base : Nat) (exponent : Int) : Nat × Nat :=
  (base * Nat.pow 10 exponent.toNat, Nat.pow 10 (-exponent).toNat)

/-- The exponent of the highest power of ten that does not exceed `numerator / denominator`,
both positive, found by walking from an estimate that is never too high. -/
def decimalOrder (numerator denominator : Nat) : Int :=
  let estimate : Int := ((binaryOrder numerator denominator) * 30103 - 100000) / 100000
  (List.range 4).foldl
    (fun order _ =>
      let (above, below) := scaled 1 (order + 1)
      if above * denominator ≤ numerator * below then order + 1 else order)
    estimate

/-- The one or two points of the grid `10 ^ exponent` next to a positive value that are
read back as the value, the nearer first and of two equally near the even one. -/
def neighbours (value : Rat) (exponent : Int) : List Nat :=
  let (up, down) := scaled 1 exponent
  let numerator := value.num.natAbs * down
  let denominator := value.den * up
  let floor := numerator / denominator
  let twice := 2 * (numerator % denominator)
  let ordered :=
    if twice < denominator || (twice == denominator && floor % 2 == 0) then [floor, floor + 1]
    else [floor + 1, floor]
  ordered.filter fun candidate =>
    let (top, bottom) := scaled candidate exponent
    nearestMagnitude top bottom == some value

/-- The shortest digits of a positive value of double precision. Seventeen always suffice.
Rounding up to the next power of ten shows as a final zero, which is dropped. -/
def shortest (value : Rat) : Decimal :=
  let order := decimalOrder value.num.natAbs value.den
  let found := (List.range 17).findSome? fun extra : Nat =>
    let exponent : Int := order - extra
    (neighbours value exponent).head?.map fun digits => (digits, exponent)
  match found with
  | none => ⟨0, 1⟩
  | some (digits, exponent) =>
      ⟨if digits % 10 = 0 then digits / 10 else digits, exponent + (toString digits).length⟩

def exponentText (exponent : Int) : String :=
  (if exponent < 0 then "e-" else "e+") ++ toString exponent.natAbs

/-- Digits with their point written out, or in exponent form where that runs too long. -/
def Decimal.text (decimal : Decimal) : String :=
  let digits := (toString decimal.digits).toList
  let count : Int := digits.length
  if count ≤ decimal.point && decimal.point ≤ 21 then
    String.ofList (digits ++ List.replicate (decimal.point - count).toNat '0')
  else if 0 < decimal.point && decimal.point ≤ 21 then
    String.ofList (digits.take decimal.point.toNat ++ '.' :: digits.drop decimal.point.toNat)
  else if -6 < decimal.point && decimal.point ≤ 0 then
    String.ofList ('0' :: '.' :: List.replicate (-decimal.point).toNat '0' ++ digits)
  else
    let mantissa := match digits with
      | [] => []
      | [first] => [first]
      | first :: others => first :: '.' :: others
    String.ofList mantissa ++ exponentText (decimal.point - 1)

def text : Number → String
  | .infinite negative => if negative then "-Infinity" else "Infinity"
  | .finite value =>
      if value = 0 then "0"
      else if value < 0 then "-" ++ (shortest (-value)).text
      else (shortest value).text

end ImapDialogue.Number
