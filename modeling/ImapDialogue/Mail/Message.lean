import ImapDialogue.Mail.Address
import ImapDialogue.Mail.Date
import ImapDialogue.Mail.Part

/-!
A message as its source spells it: who sent it to whom, its subject, its date and its texts.
Of repeated fields the last one counts, except that all recipients do. Every source gives a
message. A part is text in some transfer encoding; what is attached is no text of the message.
-/

namespace ImapDialogue.Mail

def singleLineEnds : Bytes → Bytes
  | 0x0D :: 0x0A :: rest => 0x0A :: singleLineEnds rest
  | byte :: rest => byte :: singleLineEnds rest
  | [] => []

namespace Part

def isShown (part : Part) : Bool :=
  part.content.disposition.isEmpty || part.content.disposition == "inline"

def text (part : Part) : String :=
  Utf8.decode (singleLineEnds (part.content.encoding.decode part.pieces))

/-- The texts of the shown parts of some kinds, in order; empty ones do not count. -/
def texts (parts : List Part) (kinds : List String) : List String :=
  ((parts.filter fun part => part.isShown && kinds.contains part.content.kind).map text).filter
    (!·.isEmpty)

def plainTexts (parts : List Part) : List String :=
  texts parts ["text/plain", "message/delivery-status"]

def markedTexts (parts : List Part) : List String := texts parts ["text/html"]

end Part

/-- What a message says. A message without a readable date has none. -/
structure Message where
  sender : List Address
  recipients : List Address
  subject : String
  date : Option Instant
  plain : String
  html : Option String
deriving Repr

namespace Message

def filled (text : String) : Option String := if text.isEmpty then none else some text

def fields (parts : List Part) : List Field := (parts.head?.map (·.fields)).getD []

def subjectOf (fields : List Field) : String :=
  ((((Header.all fields "subject").map EncodedWord.decode).filter (!·.isEmpty)).getLast?).getD ""

def read (source : Bytes) : Message :=
  let parts := Part.ofMessage source
  let fields := fields parts
  { sender := (((Header.all fields "from").getLast?).map Address.ofField).getD []
    recipients := (Header.all fields "to").flatMap Address.ofField
    subject := subjectOf fields
    date := ((Header.all fields "date").getLast?).bind Date.read
    plain := "\n".intercalate (Part.plainTexts parts)
    html := filled ("<br/>\n".intercalate (Part.markedTexts parts)) }

end Message

end ImapDialogue.Mail
