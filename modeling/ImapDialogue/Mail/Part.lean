import ImapDialogue.Mail.Content

/-!
The parts of a message. A message is read line by line: a header, then the lines behind it,
where boundary lines lead into further parts, from one part to the next, and out again. Every
part keeps its header and the text behind it.
-/

namespace ImapDialogue.Mail

/-- A part of a message: its header and the pieces of its text. A part that encloses others
has no text of its own. -/
structure Part where
  fields : List Field
  content : Content
  pieces : List Bytes
deriving DecidableEq, Repr

/-- Whether a boundary line comes before a part or behind the last one. -/
inductive Border where
  | next
  | last
deriving DecidableEq, Repr

namespace Border

/-- What may stand behind the boundary in its line: a line end, or one or two hyphens and an
optional line end. -/
def ofTail? : Bytes → Option Border
  | [0x2D] => some .last
  | [0x2D, 0x2D] => some .last
  | [0x2D, 0x2D, byte] => if Byte.isLineEnd byte then some .last else none
  | [0x2D, 0x2D, byte, 0x0A] => if Byte.isLineEnd byte then some .last else none
  | byte :: tail => if Byte.isLineEnd byte && tail.length < 4 then some .next else none
  | [] => none

/-- A line without the line end in front of it. Behind a carriage return one more byte goes. -/
def withoutLead : Bytes → Bytes
  | first :: second :: rest =>
      if first == Byte.carriageReturn then rest
      else if first == Byte.lineFeed then
        if second == Byte.lineFeed then rest else second :: rest
      else first :: second :: rest
  | line => line

def of? (boundary line : Bytes) : Option Border :=
  (Bytes.after? (0x2D :: 0x2D :: boundary) (withoutLead line)).bind ofTail?

end Border

/-- How deep in a message its reader stands: the boundary of the part at hand, that of the part
around it, and whether there is one around it. -/
structure Level where
  boundary : Option Bytes
  outer : Option Bytes
  isInner : Bool
deriving DecidableEq, Repr

/-- Where a boundary line leads: into the part at hand, past all parts in it, to the next part
beside it, or out of the part around it. -/
inductive Crossing where
  | enter
  | exhaust
  | advance
  | leave
deriving DecidableEq, Repr

namespace Level

def crossing? (level : Level) (line : Bytes) : Option Crossing :=
  match level.boundary.bind (Border.of? · line), level.outer.bind (Border.of? · line) with
  | some .next, _ => some .enter
  | some .last, _ => some .exhaust
  | none, some .next => some .advance
  | none, some .last => some .leave
  | none, none => none

end Level

/-- A message read in part: where its reader stands, the enclosing parts still open, the lines
of the header at hand, the lines of the text at hand, and the parts found so far. Lines and
parts are kept with the last one first. Without a header or a text, lines are passed over. -/
structure Outline where
  level : Level
  enclosing : List Level
  header : Option (List Bytes)
  text : Option (List Bytes)
  parts : List Part
deriving DecidableEq, Repr

namespace Outline

def start : Outline := ⟨⟨none, none, false⟩, [], some [], none, []⟩

def add (outline : Outline) (piece : Bytes) : Outline :=
  match outline.parts with
  | part :: others =>
      if piece.isEmpty then outline
      else { outline with parts := { part with pieces := part.pieces ++ [piece] } :: others }
  | [] => outline

def cutLineEnd (text : Bytes) : Bytes × Bytes :=
  match text.reverse with
  | 0x0A :: 0x0D :: rest => (rest.reverse, [0x0D, 0x0A])
  | 0x0A :: rest => (rest.reverse, [0x0A])
  | rest => (rest.reverse, [])

/-- A boundary line ends the text at hand. In an inner part the line end in front of it belongs
to the boundary, unless it is all the text in front of a further part. -/
def closeText (outline : Outline) (isFollowed : Bool) : Outline :=
  let closed := { outline with text := none }
  match outline.text with
  | none => closed
  | some lines =>
      let text := lines.reverse.flatten
      if outline.level.isInner then
        let (body, _) := cutLineEnd text
        closed.add (if isFollowed && body.isEmpty then text else body)
      else closed.add text

def enter (outline : Outline) (boundary : Option Bytes) : Outline :=
  { outline with level := ⟨none, boundary, true⟩, header := some [] }

def leave (outline : Outline) : Outline :=
  match outline.enclosing with
  | level :: others => { outline with level := level, enclosing := others, header := none }
  | [] => { outline with header := none }

def closeHeader (outline : Outline) (lines : List Bytes) : Outline :=
  let fields := Header.fields lines.reverse
  let read := Content.ofFields fields
  let content :=
    if read.kind.isEmpty && !outline.level.isInner then { read with kind := "text/plain" } else read
  let level := { outline.level with boundary := content.boundary }
  let encloses := content.isMultipart && content.boundary.isSome
  { level := level
    enclosing := if encloses then level :: outline.enclosing else outline.enclosing
    header := none
    text := if content.isMultipart then none else some []
    parts := ⟨fields, content, []⟩ :: outline.parts }

def cross (outline : Outline) : Crossing → Outline
  | .enter => (outline.closeText true).enter outline.level.boundary
  | .exhaust => outline.closeText false
  | .advance => (outline.closeText true).enter outline.level.outer
  | .leave => (outline.closeText false).leave

def readLine (outline : Outline) (line : Bytes) : Outline :=
  match outline.level.crossing? line with
  | some crossing => outline.cross crossing
  | none =>
      match outline.header, outline.text with
      | some lines, _ =>
          if Header.isBlankLine line then outline.closeHeader lines
          else { outline with header := some (line :: lines) }
      | none, some lines => { outline with text := some (line :: lines) }
      | none, none => outline

def addLast (outline : Outline) (rest : Bytes) : Outline :=
  match outline.level.crossing? rest with
  | some _ => outline
  | none => outline.add rest

/-- The message ends, with a line that has no end or is empty. In an inner part the last line
end is read together with it. -/
def finish (outline : Outline) (rest : Bytes) : Outline :=
  match outline.header, outline.text with
  | some lines, _ =>
      match outline.level.crossing? rest with
      | some crossing => outline.cross crossing
      | none => outline.closeHeader (rest :: lines)
  | none, some lines =>
      let text := lines.reverse.flatten
      if outline.level.isInner then
        let (body, lineEnd) := cutLineEnd text
        (outline.add body).addLast (lineEnd ++ rest)
      else (outline.add text).addLast rest
  | none, none => outline

def read (outline : Outline) (line : Bytes) : Bytes → Outline
  | [] => outline.finish line.reverse
  | 0x0A :: rest => read (outline.readLine (0x0A :: line).reverse) [] rest
  | byte :: rest => read outline (byte :: line) rest

end Outline

namespace Part

def ofMessage (source : Bytes) : List Part := (Outline.start.read [] source).parts.reverse

end Part

end ImapDialogue.Mail
