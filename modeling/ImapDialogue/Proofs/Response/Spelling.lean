import ImapDialogue.Proofs.Response.Openings
import ImapDialogue.Proofs.Response.Reply

/-!
All the ways to write fetched data. Tokens stand any number of spaces apart, letters of names and
of the word for no value are of any case, numbers and sizes may begin with zeros, and any byte
between quotes may carry a backslash. What is written does not depend on these choices.
-/

namespace ImapDialogue.Response

def spaces (count : Nat) : Bytes := List.replicate count Byte.space

/-! ## Values -/

/-- Bytes as they stand between quotes. A quote and a backslash need a backslash in front. -/
inductive Escaped : Bytes → Bytes → Prop
  | nil : Escaped [] []
  | bare {byte : UInt8} {bytes written : Bytes} (unquoted : byte ≠ Byte.quote)
      (unslashed : byte ≠ Byte.backslash) (others : Escaped bytes written) :
      Escaped (byte :: bytes) (byte :: written)
  | marked {byte : UInt8} {bytes written : Bytes} (others : Escaped bytes written) :
      Escaped (byte :: bytes) (Byte.backslash :: byte :: written)

/-- The bytes of a value other than a list. The header of a literal has room for twenty digits, one
less with a plus sign. -/
inductive ScalarSpelling : Value → Bytes → Prop
  | nil {letters : Bytes} (word : letters.map Byte.lower = Bytes.ofNarrow "nil") :
      ScalarSpelling .nil letters
  | number {digits : Bytes} (filled : digits ≠ [])
      (numeric : ∀ byte ∈ digits, Byte.isDigit byte = true)
      (exact : Bytes.decimal digits < Number.exactLimit) :
      ScalarSpelling (.number (.finite (Bytes.decimal digits : Nat))) digits
  | atom (word : Atom) : ScalarSpelling (.text (Bytes.toNarrow word.bytes)) word.bytes
  | quoted {text : String} {written : Bytes} (escaped : Escaped (Utf8.encode text) written) :
      ScalarSpelling (.text text) (Byte.quote :: (written ++ [Byte.quote]))
  | literal {digits data : Bytes} (plus : Bool) (filled : digits ≠ [])
      (numeric : ∀ byte ∈ digits, Byte.isDigit byte = true) (short : digits.length + plus.toNat ≤ 20)
      (size : Bytes.decimal digits = data.length) :
      ScalarSpelling (.bytes data) (Literal.spelled digits plus ++ data)

mutual

inductive ValueSpelling : Value → Bytes → Prop
  | scalar {value : Value} {written : Bytes} (simple : ScalarSpelling value written) :
      ValueSpelling value written
  | list {items : List Value} {written : Bytes} (lead : Nat)
      (inside : ItemsSpelling items written) :
      ValueSpelling (.list items) (Byte.openParen :: (spaces lead ++ (written ++ [Byte.closeParen])))

inductive ItemsSpelling : List Value → Bytes → Prop
  | none : ItemsSpelling [] []
  | last {item : Value} {written : Bytes} (spelled : ValueSpelling item written) (behind : Nat) :
      ItemsSpelling [item] (written ++ spaces behind)
  | more {item next : Value} {others : List Value} {written rest : Bytes}
      (spelled : ValueSpelling item written) (between : Nat)
      (inside : ItemsSpelling (next :: others) rest) :
      ItemsSpelling (item :: next :: others) (written ++ (spaces (between + 1) ++ rest))

end

/-! ## Attributes -/

/-- A byte of a name: visible ASCII without parentheses, brackets, braces and quotes. -/
def isLabelByte (byte : UInt8) : Bool :=
  0x21 ≤ byte && byte ≤ 0x7E &&
    !([Byte.openParen, Byte.closeParen, Byte.openBracket, Byte.closeBracket, Byte.openBrace,
      Byte.closeBrace, Byte.quote].contains byte)

def isPartByte (byte : UInt8) : Bool :=
  0x20 ≤ byte && byte ≤ 0x7E && !([Byte.openBracket, Byte.closeBracket].contains byte)

/-- The name of an attribute in letters of any case, perhaps with a section in brackets. -/
structure Label where
  base : Bytes
  part : Option Bytes
  filled : base ≠ []
  visible : ∀ byte ∈ base, isLabelByte byte = true
  printable : ∀ inner, part = some inner → ∀ byte ∈ inner, isPartByte byte = true

namespace Label

def bytes (label : Label) : Bytes := label.base ++ Name.bracketed label.part

/-- The name in capitals, by which the attribute is known. -/
def text (label : Label) : String := (Bytes.toNarrow label.bytes).toUpper

def Spelled (label : Label) (written : Bytes) : Prop :=
  written.map Byte.lower = label.bytes.map Byte.lower

instance (label : Label) (written : Bytes) : Decidable (label.Spelled written) :=
  inferInstanceAs (Decidable (_ = _))

end Label

/-- The bytes of attributes, the spaces behind the last one included. If the last one has no value
then the word for that may be left out. -/
inductive AttributesSpelling : List (Label × Value) → Bytes → Prop
  | none : AttributesSpelling [] []
  | bare {label : Label} {name : Bytes} (named : label.Spelled name) (behind : Nat) :
      AttributesSpelling [(label, .nil)] (name ++ spaces behind)
  | last {label : Label} {value : Value} {name written : Bytes} (named : label.Spelled name)
      (between : Nat) (spelled : ValueSpelling value written) (behind : Nat) :
      AttributesSpelling [(label, value)]
        (name ++ (spaces (between + 1) ++ (written ++ spaces behind)))
  | more {label : Label} {value : Value} {next : Label × Value} {others : List (Label × Value)}
      {name written rest : Bytes} (named : label.Spelled name) (between : Nat)
      (spelled : ValueSpelling value written) (between' : Nat)
      (inside : AttributesSpelling (next :: others) rest) :
      AttributesSpelling ((label, value) :: next :: others)
        (name ++ (spaces (between + 1) ++ (written ++ (spaces (between' + 1) ++ rest))))

/-- What is known once all attributes were read: their names in the order in which they first
came, each with the value that came last. -/
def Attributes.latest (settings : List (String × Value)) : Attributes :=
  ⟨(settings.map Prod.fst).eraseDups.filterMap fun name =>
    (settings.reverse.lookup name).map fun value => (name, value)⟩

/-! ## Responses -/

def Idle (text : Bytes) : Prop :=
  ∀ (opening : Opening) (offset : Nat), ¬opening.StandsAt text offset

/-- The bytes of records, with whole lines in front of each in which no response begins, and any
such text behind the last one. The text behind a response is taken from its closing parenthesis
on, which begins no response. -/
inductive Transcript : List Record → Bytes → Prop
  | idle {text : Bytes} (idle : Idle text) : Transcript [] text
  | response {lines written behind : Bytes} {opening : Opening} {settings : List (Label × Value)}
      {records : List Record} (idle : Idle lines)
      (whole : lines.getLast?.all Byte.isLineEnd = true)
      (exact : Bytes.decimal opening.digits < Number.exactLimit) (lead : Nat)
      (spelled : AttributesSpelling settings written)
      (others : Transcript records (Byte.closeParen :: behind)) :
      Transcript
        (⟨.finite (Bytes.decimal opening.digits : Nat),
          .latest (settings.map fun entry => (entry.1.text, entry.2))⟩ :: records)
        (lines ++ (opening.bytes ++ (spaces lead ++ (written ++ Byte.closeParen :: behind))))

end ImapDialogue.Response
