import ImapDialogue.Wire.Utf8

/-!
The header of a message or of a part of one: lines up to the first empty one. A line that
begins with a space or a tab continues the line in front of it. Names do not depend on case; a
field's text is UTF-8.
-/

namespace ImapDialogue.Mail

/-- One header field: its name in small letters, and what stands behind the colon as one line
without the white space around it. -/
structure Field where
  name : String
  content : Bytes
deriving DecidableEq, Repr

namespace Field

def text (field : Field) : String := Utf8.decode field.content

end Field

namespace Header

def isBlankLine (line : Bytes) : Bool := line == [0x0A] || line == [0x0D, 0x0A]

def continues (line : Bytes) : Bool :=
  line.head?.any fun byte => byte == Byte.space || byte == Byte.tab

def joined (lines : List Bytes) : List Bytes :=
  (lines.foldl (fun (found : List Bytes) line =>
    match found with
    | last :: others => if continues line then (last ++ line) :: others else line :: found
    | [] => [line]) []).reverse

/-- Every line end becomes one space, together with the spaces and tabs behind it. The truth
value says whether a line end was the last to be read. -/
def unfolded (behind : Bool) : Bytes → Bytes
  | [] => []
  | 0x0D :: 0x0A :: rest => Byte.space :: unfolded true rest
  | byte :: rest =>
      if Byte.isLineEnd byte then Byte.space :: unfolded true rest
      else if behind && (byte == Byte.space || byte == Byte.tab) then unfolded true rest
      else byte :: unfolded false rest

def isSeparator (line : Bytes) : Bool :=
  (Bytes.afterAnyCase? (Bytes.ofNarrow "From ") line).isSome ||
    (Bytes.afterAnyCase? (Bytes.ofNarrow "POST ") line).isSome

def field? (line : Bytes) : Option Field :=
  let name := Bytes.trim (line.takeWhile (· != 0x3A))
  match line.dropWhile (· != 0x3A) with
  | [] => none
  | _ :: content =>
      if name.isEmpty then none
      else some ⟨Bytes.toNarrow (name.map Byte.lower), Bytes.trim (unfolded false content)⟩

def fields (lines : List Bytes) : List Field :=
  match joined lines with
  | first :: others =>
      (if isSeparator first then others else first :: others).filterMap field?
  | [] => []

def all (fields : List Field) (name : String) : List String :=
  (fields.filter (·.name == name)).map Field.text

def first (fields : List Field) (name : String) : String :=
  ((fields.find? (·.name == name)).map fun field => Bytes.toNarrow field.content).getD ""

end Header

end ImapDialogue.Mail
