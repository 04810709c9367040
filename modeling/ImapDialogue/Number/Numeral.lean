import ImapDialogue.Number.Basic

/-!
Numerals in settings. White space around a numeral does not count and a blank text is zero.
A numeral is a run of digits behind `0x`, `0o` or `0b`, or a decimal numeral with an
optional sign, point and exponent, or `Infinity` with an optional sign. The value is rounded
once, from the exact rational.
-/

namespace ImapDialogue.Numeral

def isBlank (char : Char) : Bool :=
  let code := char.toNat
  (0x09 ≤ code && code ≤ 0x0D) || code == 0x20 || code == 0xA0 || code == 0x1680 ||
    (0x2000 ≤ code && code ≤ 0x200A) || code == 0x2028 || code == 0x2029 || code == 0x202F ||
    code == 0x205F || code == 0x3000 || code == 0xFEFF

def trim (chars : List Char) : List Char :=
  ((chars.dropWhile isBlank).reverse.dropWhile isBlank).reverse

def digit (char : Char) : Option Nat :=
  let code := char.toNat
  if 0x30 ≤ code && code ≤ 0x39 then some (code - 0x30)
  else if 0x61 ≤ code && code ≤ 0x7A then some (code - 0x61 + 10)
  else if 0x41 ≤ code && code ≤ 0x5A then some (code - 0x41 + 10)
  else none

def digitsValue (base : Nat) (chars : List Char) : Option Nat :=
  chars.foldlM (fun value char => do
    let next ← digit char
    if next < base then some (value * base + next) else none) 0

def based (base : Nat) (chars : List Char) : Option Number :=
  if chars.isEmpty then none else (digitsValue base chars).map Number.ofNat

def sign : List Char → Bool × List Char
  | '-' :: rest => (true, rest)
  | '+' :: rest => (false, rest)
  | rest => (false, rest)

def exponent : List Char → Option Int
  | [] => some 0
  | mark :: rest =>
      if mark == 'e' || mark == 'E' then
        let (negative, digits) := sign rest
        if digits.isEmpty then none
        else (digitsValue 10 digits).map fun value => if negative then -(value : Int) else value
      else none

/-- `digits · 10 ^ exponent` rounded. Beyond the range of double precision the power is not
formed: with the first digit at place 400 the value is infinite, at place -400 it is zero. -/
def rounded (negative : Bool) (digits : Nat) (count : Nat) (exponent : Int) : Number :=
  if digits = 0 then .finite 0
  else if 400 + (count : Int) < exponent then .infinite negative
  else if exponent + count < -400 then .finite 0
  else
    let magnitude := mkRat (digits * Nat.pow 10 exponent.toNat : Nat) (Nat.pow 10 (-exponent).toNat)
    Number.ofRat (if negative then -magnitude else magnitude)

/-- A decimal numeral without white space: digits with at most one point among or beside
them, then an optional exponent. -/
def decimal (chars : List Char) : Option Number :=
  let (negative, unsigned) := sign chars
  if unsigned == "Infinity".toList then some (.infinite negative)
  else
    let whole := unsigned.takeWhile Char.isDigit
    let behind := unsigned.dropWhile Char.isDigit
    let (fraction, tail) := match behind with
      | '.' :: rest => (rest.takeWhile Char.isDigit, rest.dropWhile Char.isDigit)
      | rest => ([], rest)
    let digits := whole ++ fraction
    if digits.isEmpty then none
    else do
      let value ← digitsValue 10 digits
      let power ← exponent tail
      return rounded negative value digits.length (power - fraction.length)

/-- The number a text stands for, or nothing if the text is no numeral. -/
def read (text : String) : Option Number :=
  match trim text.toList with
  | [] => some (.finite 0)
  | '0' :: mark :: rest =>
      if mark == 'x' || mark == 'X' then based 16 rest
      else if mark == 'o' || mark == 'O' then based 8 rest
      else if mark == 'b' || mark == 'B' then based 2 rest
      else decimal ('0' :: mark :: rest)
  | chars => decimal chars

end ImapDialogue.Numeral
