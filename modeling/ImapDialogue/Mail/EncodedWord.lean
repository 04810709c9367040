import ImapDialogue.Mail.Transfer
import ImapDialogue.Number.Numeral
import ImapDialogue.Text
import ImapDialogue.Wire.Utf8

/-!
Encoded words in header fields: a character set, an encoding and the encoded text between
question marks. Neighbouring words in the same encoding and character set are put together
before they are decoded, so that a character may be spread over both, and white space between
words goes. Encoded text counts as UTF-8.
-/

namespace ImapDialogue.Mail

inductive WordEncoding where
  | base64
  | quoted
deriving DecidableEq, Repr

structure EncodedWord where
  charset : List Char
  letter : Char
  text : List Char
deriving DecidableEq, Repr

namespace EncodedWord

def encoding? (letter : Char) : Option WordEncoding :=
  if letter == 'B' || letter == 'b' then some .base64
  else if letter == 'Q' || letter == 'q' then some .quoted
  else none

def opening (word : EncodedWord) : List Char :=
  '=' :: '?' :: (word.charset ++ ['?', word.letter, '?'])

def spelled (word : EncodedWord) : List Char := word.opening ++ word.text ++ ['?', '=']

def encoding (word : EncodedWord) : WordEncoding := (encoding? word.letter).getD .quoted

def opening? : List Char → Option (List Char × Char × List Char)
  | '=' :: '?' :: rest =>
      let charset := rest.takeWhile (· != '?')
      match rest.dropWhile (· != '?') with
      | '?' :: letter :: '?' :: behind =>
          if charset.isEmpty || (encoding? letter).isNone then none
          else some (charset, letter, behind)
      | _ => none
  | _ => none

def begin? (chars : List Char) : Option (EncodedWord × List Char) := do
  let (charset, letter, behind) ← opening? chars
  match behind.dropWhile (· != '?') with
  | '?' :: '=' :: others => some (⟨charset, letter, behind.takeWhile (· != '?')⟩, others)
  | _ => none

/-- The encoded word that begins a text, the white space behind it and the word that follows. -/
def pair? (chars : List Char) : Option (EncodedWord × List Char × EncodedWord) := do
  let (word, rest) ← begin? chars
  let (next, _) ← begin? (rest.dropWhile Numeral.isBlank)
  return (word, rest.takeWhile Numeral.isBlank, next)

/-- The name of a word's character set without regard to case. Between `utf` and its number a
hyphen or an underscore does not count. -/
def charsetName (word : EncodedWord) : List Char :=
  match (Numeral.trim word.charset).map Char.toLower with
  | 'u' :: 't' :: 'f' :: mark :: digit :: rest =>
      if (mark == '-' || mark == '_') && digit.isDigit then 'u' :: 't' :: 'f' :: digit :: rest
      else 'u' :: 't' :: 'f' :: mark :: digit :: rest
  | name => name

/-- What marks the place at which two words are put together. A text may hold it from the
start. -/
def joint : List Char := "__\x00JOIN\x00__".toList

/-- A text with a joint in place of the white space between neighbouring words in one encoding
and one character set. The number says how many characters are settled already. -/
def marked (encoding : WordEncoding) : Nat → List Char → List Char
  | _, [] => []
  | settled + 1, _ :: rest => marked encoding settled rest
  | 0, char :: rest =>
      match pair? (char :: rest) with
      | some (word, blanks, next) =>
          if word.encoding == encoding && next.encoding == encoding then
            word.spelled ++ (if word.charsetName == next.charsetName then joint else blanks) ++
              marked encoding (word.spelled.length + blanks.length - 1) rest
          else char :: marked encoding 0 rest
      | none => char :: marked encoding 0 rest

/-- How many characters go at a joint: its own and, where they are there, those that end a word
in front of it and those that stand in front of a word's text behind it. -/
def jointLength? (chars : List Char) : Option Nat :=
  let front := if ['?', '='].isPrefixOf chars then 2 else 0
  let behind := chars.drop front
  if joint.isPrefixOf behind then
    match opening? (behind.drop joint.length) with
    | some (charset, _, _) => some (front + joint.length + charset.length + 5)
    | none => some (front + joint.length)
  else none

def joined : Nat → List Char → List Char
  | _, [] => []
  | settled + 1, _ :: rest => joined settled rest
  | 0, char :: rest =>
      match jointLength? (char :: rest) with
      | some length => joined (length - 1) rest
      | none => char :: joined 0 rest

def closed : Nat → List Char → List Char
  | _, [] => []
  | settled + 1, _ :: rest => closed settled rest
  | 0, char :: rest =>
      match pair? (char :: rest) with
      | some (word, blanks, _) =>
          word.spelled ++ closed (word.spelled.length + blanks.length - 1) rest
      | none => char :: closed 0 rest

def inCharset (char : Char) : Bool :=
  char.isAlphanum || char == '_' || char == '-' || char == '*'

/-- An equals sign and a hexadecimal digit lose the white space between them. -/
def tightened : List Char → List Char
  | [] => []
  | '=' :: rest =>
      let behind := rest.dropWhile Numeral.isBlank
      if behind.head?.any fun char =>
          (QuotedPrintable.hexDigit char.toUInt8).isSome && char.toNat < 0x80 then
        '=' :: tightened (rest.dropWhile Numeral.isBlank)
      else '=' :: tightened rest
  | char :: rest => char :: tightened rest
termination_by chars => chars.length
decreasing_by
  · have := (List.dropWhile_suffix (p := Numeral.isBlank) (l := rest)).length_le
    simp only [List.length_cons]
    omega
  · simp
  · simp

/-- The bytes of a word. In base 64 every text between paddings is read on its own; in the
quoted encoding an underscore and any white space stand for a space. -/
def bytes (word : EncodedWord) : Bytes :=
  match word.encoding with
  | .base64 =>
      (Parts.between '=' word.text).flatMap fun part =>
        Base64.decode (Utf8.encode (String.ofList part))
  | .quoted =>
      let spaced := (tightened word.text).map fun char =>
        if char == '_' || Numeral.isBlank char then ' ' else char
      QuotedPrintable.unescape (Utf8.encode (String.ofList spaced))

def decoded : Nat → List Char → List Char
  | _, [] => []
  | settled + 1, _ :: rest => decoded settled rest
  | 0, char :: rest =>
      match begin? (char :: rest) with
      | some (word, _) =>
          if word.charset.all inCharset then
            (Utf8.decode word.bytes).toList ++ decoded (word.spelled.length - 1) rest
          else char :: decoded 0 rest
      | none => char :: decoded 0 rest

def decode (text : String) : String :=
  String.ofList
    (decoded 0 (closed 0 (joined 0 (marked .quoted 0 (marked .base64 0 text.toList)))))

end EncodedWord

end ImapDialogue.Mail
