import ImapDialogue.Wire.Bytes

/-!
Transfer encodings of message bodies. All readers are lenient: what does not belong to an
encoding is skipped or stands for itself. A body may come in pieces, and what a piece leaves
open is read together with the next one.
-/

namespace ImapDialogue.Mail

inductive TransferEncoding where
  | plain
  | base64
  | quotedPrintable
deriving DecidableEq, Repr

namespace Base64

def sextet (byte : UInt8) : Option Nat :=
  if 0x41 ≤ byte && byte ≤ 0x5A then some (byte.toNat - 0x41)
  else if 0x61 ≤ byte && byte ≤ 0x7A then some (byte.toNat - 0x61 + 26)
  else if 0x30 ≤ byte && byte ≤ 0x39 then some (byte.toNat - 0x30 + 52)
  else if byte == 0x2B || byte == 0x2D then some 62
  else if byte == 0x2F || byte == 0x5F then some 63
  else none

/-- The bytes that six-bit groups spell; bits that fill no byte are dropped. -/
def join : List Nat → Bytes
  | first :: second :: third :: fourth :: rest =>
      UInt8.ofNat (first * 4 + second / 16) :: UInt8.ofNat (second % 16 * 16 + third / 4) ::
        UInt8.ofNat (third % 4 * 64 + fourth) :: join rest
  | [first, second, third] =>
      [UInt8.ofNat (first * 4 + second / 16), UInt8.ofNat (second % 16 * 16 + third / 4)]
  | [first, second] => [UInt8.ofNat (first * 4 + second / 16)]
  | _ => []

def padding : UInt8 := 0x3D

/-- The bytes that a text in base 64 spells up to its first padding. Other characters outside
the alphabet do not count. -/
def decode (bytes : Bytes) : Bytes := join ((bytes.takeWhile (· != padding)).filterMap sextet)

def counts (byte : UInt8) : Bool :=
  byte == padding || ((sextet byte).isSome && byte != 0x2D && byte != 0x5F)

/-- The bytes that the pieces of a body spell, behind characters left over from the piece in
front. Each piece is read as far as it has whole groups of four characters. -/
def decodePieces (left : Bytes) : List Bytes → Bytes
  | [] => decode left
  | piece :: others =>
      let text := left ++ (piece.map (· &&& 0x7F)).filter counts
      let whole := text.length - text.length % 4
      decode (text.take whole) ++ decodePieces (text.drop whole) others

end Base64

namespace QuotedPrintable

def hexDigit (byte : UInt8) : Option Nat :=
  if 0x30 ≤ byte && byte ≤ 0x39 then some (byte.toNat - 0x30)
  else if 0x61 ≤ byte && byte ≤ 0x66 then some (byte.toNat - 0x57)
  else if 0x41 ≤ byte && byte ≤ 0x46 then some (byte.toNat - 0x37)
  else none

def unescape : Bytes → Bytes
  | 0x3D :: high :: low :: rest =>
      match hexDigit high, hexDigit low with
      | some first, some second => UInt8.ofNat (first * 16 + second) :: unescape rest
      | _, _ => 0x3D :: unescape (high :: low :: rest)
  | byte :: rest => byte :: unescape rest
  | [] => []
termination_by bytes => bytes.length

def trimLines : Bytes → Bytes
  | [] => []
  | byte :: rest =>
      let behind := rest.dropWhile fun other => other == Byte.space || other == Byte.tab
      if (byte == Byte.space || byte == Byte.tab) && (behind.head?.all Byte.isLineEnd) then
        trimLines rest
      else byte :: trimLines rest

def joinLines : Bytes → Bytes
  | 0x3D :: 0x0D :: 0x0A :: rest => joinLines rest
  | 0x3D :: 0x0A :: rest => joinLines rest
  | [0x3D] => []
  | byte :: rest => byte :: joinLines rest
  | [] => []

def decode (bytes : Bytes) : Bytes := unescape (joinLines (trimLines bytes))

/-- Cuts off an escape at the end that the next piece may complete: an equals sign with at most
one character behind it, which is no line feed. -/
def cutEscape : Bytes → Bytes × Bytes
  | [0x3D, byte] => if byte == Byte.lineFeed then ([0x3D, byte], []) else ([], [0x3D, byte])
  | [0x3D] => ([], [0x3D])
  | byte :: rest => let (whole, left) := cutEscape rest; (byte :: whole, left)
  | [] => ([], [])

/-- The bytes that the pieces of a body spell, behind what the piece in front left open. Only
the lower seven bits of a byte count. -/
def decodePieces (left : Bytes) : List Bytes → Bytes
  | [] => decode left
  | piece :: others =>
      let (whole, left) := cutEscape (left ++ piece.map (· &&& 0x7F))
      decode whole ++ decodePieces left others

end QuotedPrintable

namespace TransferEncoding

def named (name : String) : TransferEncoding :=
  if name == "base64" then .base64
  else if name == "quoted-printable" then .quotedPrintable
  else .plain

def decode : TransferEncoding → List Bytes → Bytes
  | .plain, pieces => pieces.flatten
  | .base64, pieces => Base64.decodePieces [] pieces
  | .quotedPrintable, pieces => QuotedPrintable.decodePieces [] pieces

end TransferEncoding

end ImapDialogue.Mail
