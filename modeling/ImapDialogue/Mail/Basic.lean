import ImapDialogue.Mail.Message
import ImapDialogue.Response.Value

/-!
Mails: fetched messages with the numbers under which the server knows them. Who reads their
sources is left open, and may find that a source is no message; the reader of this library never
does.
-/

namespace ImapDialogue

/-- A fetched message. The size is that of its source in bytes. -/
structure Mail where
  sequence : Number
  uid : Number
  sender : List Mail.Address
  recipients : List Mail.Address
  subject : String
  date : Instant
  size : Nat
  plain : String
  html : Option String
deriving Repr

namespace Mail

/-- A reader of message sources, of which nothing is assumed. -/
class Reader where
  /-- The message that a source gives, or why it gives none. -/
  read : Bytes → Except String Message
  /-- For how many turns a source is read. -/
  turns : Bytes → Nat

/-- The reader that takes every source for a message. It takes a turn for each line of the source
and three around them, and two more for a last line that is not ended. -/
instance : Reader where
  read source := .ok (Message.read source)
  turns source :=
    source.count Byte.lineFeed + (if source.getLast? = some Byte.lineFeed then 3 else 5)

/-- The number a record carries as its UID, zero if it carries none. -/
def uidOf (attributes : Response.Attributes) : Number :=
  match attributes.get? "UID" with
  | some (.number uid) => uid
  | _ => .finite 0

/-- The mail that a record makes of a message and its source. A message without a readable date
gets the current time. -/
def ofMessage (now : Instant) (record : Response.Record) (source : Bytes) (message : Message) :
    Mail where
  sequence := record.sequence
  uid := uidOf record.attributes
  sender := message.sender
  recipients := message.recipients
  subject := message.subject
  date := message.date.getD now
  size := source.length
  plain := message.plain
  html := message.html

section Reader

variable [Reader]

def ofSource (now : Instant) (record : Response.Record) (source : Bytes) : Except String Mail :=
  (Reader.read source).map (ofMessage now record source)

def ofRecord? (now : Instant) (record : Response.Record) : Option Mail :=
  record.attributes.source?.bind fun source => (ofSource now record source).toOption

end Reader

def senders (mail : Mail) : String := ", ".intercalate (mail.sender.map Address.text)

end Mail

end ImapDialogue
