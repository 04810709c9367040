import ImapDialogue.Wire.Bytes

/-!
Literals. A header is an opening brace, digits, perhaps a plus sign, a closing brace and a line
end. The digits announce how many bytes of data follow the line end.

A header is looked for from the left; behind it its data is skipped, whatever it holds, and the
search goes on. A literal whose data reaches the end or runs past it is the last one.
-/

namespace ImapDialogue.Literal

structure Header where
  digits : Bytes
  length : Nat
deriving DecidableEq, Repr

def Header.size (header : Header) : Nat := Bytes.decimal header.digits

/-- What stands between the digits and the data: perhaps a plus sign, then a closing brace
and a line end. The length of that, if it is there. -/
def closing? : Bytes → Option Nat
  | 0x2B :: 0x7D :: 0x0D :: 0x0A :: _ => some 4
  | 0x7D :: 0x0D :: 0x0A :: _ => some 3
  | _ => none

def header? : Bytes → Option Header
  | 0x7B :: rest =>
      let digits := rest.takeWhile Byte.isDigit
      if digits.isEmpty then none
      else (closing? (rest.dropWhile Byte.isDigit)).map fun length =>
        ⟨digits, 1 + digits.length + length⟩
  | _ => none

/-- The places of one literal's data: from `start`, up to but not including `stop`. -/
structure Region where
  start : Nat
  stop : Nat
deriving DecidableEq, Repr

def Region.contains (region : Region) (place : Nat) : Bool :=
  region.start ≤ place && place < region.stop

/-- The regions of what is left of the data, given how far the rest is from its start. The
first number bounds the places still to be looked at. -/
def regionsFrom : Nat → Nat → Bytes → List Region
  | 0, _, _ => []
  | _ + 1, _, [] => []
  | fuel + 1, place, byte :: rest =>
      match header? (byte :: rest) with
      | none => regionsFrom fuel (place + 1) rest
      | some header =>
          let start := place + header.length
          let stop := start + header.size
          ⟨start, stop⟩ ::
            regionsFrom fuel stop ((byte :: rest).drop (header.length + header.size))

def regions (bytes : Bytes) : List Region := regionsFrom bytes.length 0 bytes

def inside (regions : List Region) (place : Nat) : Bool := regions.any (·.contains place)

end ImapDialogue.Literal
