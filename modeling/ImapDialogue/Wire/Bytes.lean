import ImapDialogue.Text

/-!
Bytes as they travel on a connection. Offsets in this library count bytes, so a
literal's announced size and a position in received data speak of the same unit.
A byte string also has a reading as text, one character a byte, and a form in capitals.
-/

namespace ImapDialogue

abbrev Bytes := List UInt8

namespace Byte

def tab : UInt8 := 0x09
def lineFeed : UInt8 := 0x0A
def carriageReturn : UInt8 := 0x0D
def space : UInt8 := 0x20
def quote : UInt8 := 0x22
def star : UInt8 := 0x2A
def openParen : UInt8 := 0x28
def closeParen : UInt8 := 0x29
def plus : UInt8 := 0x2B
def openBracket : UInt8 := 0x5B
def backslash : UInt8 := 0x5C
def closeBracket : UInt8 := 0x5D
def openBrace : UInt8 := 0x7B
def closeBrace : UInt8 := 0x7D

def isDigit (byte : UInt8) : Bool := 0x30 ≤ byte && byte ≤ 0x39

def digit (byte : UInt8) : Nat := byte.toNat - 0x30

def isWord (byte : UInt8) : Bool :=
  isDigit byte || (0x41 ≤ byte && byte ≤ 0x5A) || (0x61 ≤ byte && byte ≤ 0x7A) || byte == 0x5F

def isLineEnd (byte : UInt8) : Bool := byte == carriageReturn || byte == lineFeed

/-- White space among the 256 characters that one byte spells: the ASCII controls tab to
carriage return, the space and the no-break space. -/
def isBlank (byte : UInt8) : Bool := (0x09 ≤ byte && byte ≤ 0x0D) || byte == space || byte == 0xA0

def lower (byte : UInt8) : UInt8 := if 0x41 ≤ byte && byte ≤ 0x5A then byte + 0x20 else byte

end Byte

namespace Bytes

/-- The carriage return and line feed that close a line. -/
def crlf : Bytes := [Byte.carriageReturn, Byte.lineFeed]

/-- One byte a character. Meant for text whose characters all lie below U+0100. -/
def ofNarrow (text : String) : Bytes := text.toList.map Char.toUInt8

def toNarrow (bytes : Bytes) : String := String.ofList (bytes.map fun byte => Char.ofNat byte.toNat)

def decimal (digits : Bytes) : Nat :=
  digits.foldl (fun value byte => value * 10 + Byte.digit byte) 0

def trim (bytes : Bytes) : Bytes :=
  ((bytes.dropWhile Byte.isBlank).reverse.dropWhile Byte.isBlank).reverse

def splitSpaces (bytes : Bytes) : List Bytes := Parts.between Byte.space bytes

def after? : Bytes → Bytes → Option Bytes
  | [], bytes => some bytes
  | _ :: _, [] => none
  | expected :: pattern, byte :: bytes => if expected == byte then after? pattern bytes else none

/-- What remains behind a given beginning when ASCII letters of either case agree. -/
def afterAnyCase? : Bytes → Bytes → Option Bytes
  | [], bytes => some bytes
  | _ :: _, [] => none
  | expected :: pattern, byte :: bytes =>
      if Byte.lower expected == Byte.lower byte then afterAnyCase? pattern bytes else none

/-- The lines of sent data: each ends with the first carriage return and line feed in a row
that follows. What comes after the last of them is no line yet. -/
def lines (bytes : Bytes) : List Bytes := go [] bytes
where
  go (line : Bytes) : Bytes → List Bytes
    | [] => []
    | 0x0D :: 0x0A :: rest => line.reverse :: go [] rest
    | byte :: rest => go (byte :: line) rest

end Bytes

namespace Capital

/-- The capital form of a character that one byte spells. The sharp s becomes two letters, and the
micro sign and the y with two dots become letters that no single byte spells. -/
def ofByte (byte : UInt8) : List Char :=
  if 0x61 ≤ byte && byte ≤ 0x7A then [Char.ofNat (byte.toNat - 0x20)]
  else if byte == 0xB5 then ['\u039C']
  else if byte == 0xDF then ['S', 'S']
  else if 0xE0 ≤ byte && byte ≤ 0xFE && byte != 0xF7 then [Char.ofNat (byte.toNat - 0x20)]
  else if byte == 0xFF then ['\u0178']
  else [Char.ofNat byte.toNat]

def ofBytes (bytes : Bytes) : String := String.ofList (bytes.flatMap ofByte)

end Capital

end ImapDialogue
