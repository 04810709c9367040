import ImapDialogue.Wire.Bytes

/-!
UTF-8 in both directions. Encoding is exact. Decoding never fails: every maximal part of
an ill-formed sequence that could still have begun a character gives one replacement
character, and reading goes on right behind it. A leading byte order mark is a character
like any other.
-/

namespace ImapDialogue.Utf8

def encode (text : String) : Bytes := text.toList.flatMap String.utf8EncodeChar

/-- What a character's first byte allows: how many bytes follow, the bits it holds, and the
range of the byte right behind it. -/
structure Lead where
  following : Nat
  bits : Nat
  low : UInt8
  high : UInt8
deriving DecidableEq, Repr

/-- The first byte of a character of more than one byte, if it is one. The narrowed ranges
shut out overlong forms, surrogates and everything above U+10FFFF. -/
def lead? (byte : UInt8) : Option Lead :=
  if 0xC2 ≤ byte && byte ≤ 0xDF then some ⟨1, byte.toNat % 0x20, 0x80, 0xBF⟩
  else if byte == 0xE0 then some ⟨2, 0, 0xA0, 0xBF⟩
  else if byte == 0xED then some ⟨2, 0xD, 0x80, 0x9F⟩
  else if 0xE1 ≤ byte && byte ≤ 0xEF then some ⟨2, byte.toNat % 0x10, 0x80, 0xBF⟩
  else if byte == 0xF0 then some ⟨3, 0, 0x90, 0xBF⟩
  else if byte == 0xF4 then some ⟨3, 4, 0x80, 0x8F⟩
  else if 0xF1 ≤ byte && byte ≤ 0xF3 then some ⟨3, byte.toNat % 8, 0x80, 0xBF⟩
  else none

def replacement : Char := '\uFFFD'

def decodeFrom : Option Lead → Bytes → List Char
  | none, [] => []
  | some _, [] => [replacement]
  | none, byte :: rest =>
      if byte < 0x80 then Char.ofNat byte.toNat :: decodeFrom none rest
      else match lead? byte with
        | some state => decodeFrom (some state) rest
        | none => replacement :: decodeFrom none rest
  | some state, byte :: rest =>
      if state.low ≤ byte && byte ≤ state.high then
        let bits := state.bits * 0x40 + byte.toNat % 0x40
        if state.following ≤ 1 then Char.ofNat bits :: decodeFrom none rest
        else decodeFrom (some ⟨state.following - 1, bits, 0x80, 0xBF⟩) rest
      else if byte < 0x80 then replacement :: Char.ofNat byte.toNat :: decodeFrom none rest
      else match lead? byte with
        | some next => replacement :: decodeFrom (some next) rest
        | none => replacement :: replacement :: decodeFrom none rest

def decode (bytes : Bytes) : String := String.ofList (decodeFrom none bytes)

end ImapDialogue.Utf8
