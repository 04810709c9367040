import ImapDialogue.Command.Argument
import ImapDialogue.Proofs.Literal
import ImapDialogue.Proofs.Number.Exact
import ImapDialogue.Proofs.Wire.Digits
import ImapDialogue.Proofs.Wire.Utf8
import ImapDialogue.Response.Scan

/-!
FETCH responses as a server sends them, and what they mean. Values nest to any depth, quoted
texts are any text without line ends, and literals carry any bytes.
-/

namespace ImapDialogue.Response

def isAtomByte (byte : UInt8) : Bool :=
  !([Byte.space, Byte.openParen, Byte.closeParen, Byte.quote, Byte.openBrace,
    Byte.carriageReturn, Byte.lineFeed].contains byte)

structure Atom where
  bytes : Bytes
  filled : bytes ≠ []
  bare : ∀ byte ∈ bytes, isAtomByte byte = true
  worded : bytes.all Byte.isDigit = false
  present : bytes.map Byte.lower ≠ Bytes.ofNarrow "nil"

structure Phrase where
  text : String
  unbroken : Utf8.Unbroken text

/-- A quote and a backslash carry a backslash in front, and everything goes out as UTF-8. -/
def Phrase.bytes (phrase : Phrase) : Bytes :=
  Utf8.encode (String.ofList ('"' :: (phrase.text.toList.flatMap Argument.escape ++ ['"'])))

/-- Data that is sent as a literal. Its size takes at most the twenty digits that are looked at,
which no data in a memory exceeds. -/
structure Enclosed where
  data : Bytes
  fits : (Literal.spelled (Bytes.digits data.length) false).length ≤ Reader.headerLimit

def Enclosed.bytes (enclosed : Enclosed) : Bytes :=
  Literal.spelled (Bytes.digits enclosed.data.length) false ++ enclosed.data

inductive Sent where
  | nil
  | number (value : Fin Number.exactLimit)
  | atom (word : Atom)
  | quoted (phrase : Phrase)
  | literal (enclosed : Enclosed)
  | list (items : List Sent)

namespace Sent

mutual

def bytes : Sent → Bytes
  | .nil => Bytes.ofNarrow "NIL"
  | .number value => Bytes.digits value
  | .atom word => word.bytes
  | .quoted phrase => phrase.bytes
  | .literal enclosed => enclosed.bytes
  | .list items => Byte.openParen :: (spaced items ++ [Byte.closeParen])

def spaced : List Sent → Bytes
  | [] => []
  | [item] => item.bytes
  | item :: next :: others => item.bytes ++ Byte.space :: spaced (next :: others)

end

mutual

def meaning : Sent → Value
  | .nil => .nil
  | .number value => .number (.finite (value : Nat))
  | .atom word => .text (Bytes.toNarrow word.bytes)
  | .quoted phrase => .text phrase.text
  | .literal enclosed => .bytes enclosed.data
  | .list items => .list (meanings items)

def meanings : List Sent → List Value
  | [] => []
  | item :: others => item.meaning :: meanings others

end

end Sent

/-- A byte of a name: visible ASCII in capitals, without parentheses, brackets, braces and
quotes. -/
def isNameByte (byte : UInt8) : Bool :=
  0x21 ≤ byte && byte ≤ 0x7E && !(0x61 ≤ byte && byte ≤ 0x7A) &&
    !([Byte.openParen, Byte.closeParen, Byte.openBracket, Byte.closeBracket, Byte.openBrace,
      Byte.closeBrace, Byte.quote].contains byte)

def isSectionByte (byte : UInt8) : Bool :=
  0x20 ≤ byte && byte ≤ 0x7E && !(0x61 ≤ byte && byte ≤ 0x7A) &&
    !([Byte.openBracket, Byte.closeBracket, Byte.openBrace, Byte.closeBrace].contains byte)

structure Name where
  base : Bytes
  part : Option Bytes
  filled : base ≠ []
  capital : ∀ byte ∈ base, isNameByte byte = true
  printable : ∀ inner, part = some inner → ∀ byte ∈ inner, isSectionByte byte = true

namespace Name

theorem printable_none :
    ∀ inner, (none : Option Bytes) = some inner → ∀ byte ∈ inner, isSectionByte byte = true := by
  rintro inner ⟨⟩

def bracketed : Option Bytes → Bytes
  | none => []
  | some inner => Byte.openBracket :: (inner ++ [Byte.closeBracket])

def bytes (name : Name) : Bytes := name.base ++ bracketed name.part

def text (name : Name) : String := Bytes.toNarrow name.bytes

end Name

structure Reply where
  sequence : Fin Number.exactLimit
  attributes : List (Name × Sent)
  distinct : (attributes.map fun entry => entry.1.text).Nodup

namespace Reply

def entryBytes (entry : Name × Sent) : Bytes := entry.1.bytes ++ Byte.space :: entry.2.bytes

def attributeBytes : List (Name × Sent) → Bytes
  | [] => []
  | [entry] => entryBytes entry
  | entry :: next :: others => entryBytes entry ++ Byte.space :: attributeBytes (next :: others)

/-- The bytes of a response, line end included. -/
def bytes (reply : Reply) : Bytes :=
  Bytes.ofNarrow "* " ++ (Bytes.digits reply.sequence ++ (Bytes.ofNarrow " FETCH (" ++
    (attributeBytes reply.attributes ++ Byte.closeParen :: Bytes.crlf)))

def record (reply : Reply) : Record :=
  ⟨.finite (reply.sequence : Nat),
    ⟨reply.attributes.map fun entry => (entry.1.text, entry.2.meaning)⟩⟩

end Reply

end ImapDialogue.Response
